import Sweetspot.Filter.Sentences

/-!
# What is stored of a filter text

* `RuleText.Accepted`: what the parser checks of a rule.
* `RuleText.store`: the rule that it builds then.  No more than the first eight ports of a set are
  kept, the second before the first.
* `RuleText.meaning_eq_ok`: these two are the meaning of a rule.
* `filterParseRuleset_eq_ok`: so they are what the parser makes of a text.
* `Loaded`: a rule of a text together with what is stored of it; `Loaded.target` for either side.
-/

namespace Sweetspot

theorem bind_eq_ok {ε α β : Type} {d : Except ε α} {f : α → Except ε β} {b : β} :
    (d >>= f) = .ok b ↔ ∃ a, d = .ok a ∧ f a = .ok b := by
  cases d with
  | error e =>
    constructor
    · intro h
      cases h
    · rintro ⟨a, h, -⟩
      cases h
  | ok a =>
    constructor
    · intro h
      exact ⟨a, rfl, h⟩
    · rintro ⟨a', ha, h⟩
      rw [← h, ← Except.ok.inj ha]
      rfl

theorem ok_eq_ok {ε β : Type} {a b : β} : (Except.ok a : Except ε β) = .ok b ↔ b = a :=
  ⟨fun h => (Except.ok.inj h).symm, fun h => congrArg _ h.symm⟩

theorem error_ne_ok {ε β : Type} {e : ε} {b : β} : (Except.error e : Except ε β) ≠ .ok b := by
  intro h
  cases h

/-- Of a part that is not there nothing is checked or stored. -/
theorem absent_eq_ok {ε α β : Type} {P : α → Prop} {a b : β} :
    (Except.ok a : Except ε β) = .ok b ↔ (∀ x ∈ (none : Option α), P x) ∧ b = a := by
  rw [ok_eq_ok, iff_and_self]
  intro _ x hx
  cases hx

theorem forall_mem_some {α : Type} {a : α} {P : α → Prop} : (∀ x ∈ some a, P x) ↔ P a := by
  simp only [Option.mem_some_iff, forall_eq']

/-! ## Ports -/

/-- A port as it is stored. -/
def Numeral.port (n : Numeral) : UInt16 := UInt16.ofInt n.value

/-- A port that fits is stored as it is written. -/
theorem Numeral.toNat_port {n : Numeral} (h : n.decimal ≤ 65535) : n.port.toNat = n.decimal := by
  rw [port, n.value_of_lt (by omega), UInt16.ofInt, UInt16.toNat_ofNat']
  omega

theorem Numeral.portnum_eq_ok {n : Numeral} {z : ℤ} :
    n.portnum = .ok z ↔ n.value ≤ 65535 ∧ z = n.value := by
  rw [portnum]
  split
  · rename_i h
    exact iff_of_false error_ne_ok fun hle => absurd hle.1 (by omega)
  · rename_i h
    exact ok_eq_ok.trans (iff_and_self.2 fun _ => by omega)

/-- The ports that are stored of a set. -/
def storedPorts (first : Numeral) : List Numeral → List UInt16
  | [] => [first.port]
  | second :: others =>
    (second.port :: first.port :: others.map Numeral.port).take SW_FILTER_PORTS_MAX

theorem portnumsMore_eq_ok {ports ports' : List UInt16} {p : Numeral}
    (hlen : ports.length ≤ SW_FILTER_PORTS_MAX) :
    portnumsMore ports p = .ok ports' ↔
      p.value ≤ 65535 ∧ ports' = (ports ++ [p.port]).take SW_FILTER_PORTS_MAX := by
  have hnext : (if ports.length < SW_FILTER_PORTS_MAX then ports ++ [p.port] else ports) =
      (ports ++ [p.port]).take SW_FILTER_PORTS_MAX := by
    split
    · rename_i hroom
      rw [List.take_of_length_le]
      rw [List.length_append]
      exact hroom
    · rename_i hfull
      rw [List.take_append_of_le_length (by omega), List.take_of_length_le hlen]
  rw [portnumsMore, bind_eq_ok]
  constructor
  · rintro ⟨z, hz, h⟩
    obtain ⟨hle, rfl⟩ := Numeral.portnum_eq_ok.1 hz
    exact ⟨hle, (Except.ok.inj h).symm.trans hnext⟩
  · rintro ⟨hle, rfl⟩
    exact ⟨p.value, Numeral.portnum_eq_ok.2 ⟨hle, rfl⟩, congrArg _ hnext⟩

/-- Ports beyond the room there is are left out. -/
theorem foldlM_portnumsMore_eq_ok {ports ports' : List UInt16} {others : List Numeral}
    (hlen : ports.length ≤ SW_FILTER_PORTS_MAX) :
    others.foldlM portnumsMore ports = .ok ports' ↔ (∀ p ∈ others, p.value ≤ 65535) ∧
      ports' = (ports ++ others.map Numeral.port).take SW_FILTER_PORTS_MAX := by
  induction others generalizing ports with
  | nil =>
    rw [List.foldlM_nil, List.map_nil, List.append_nil, List.take_of_length_le hlen]
    exact ok_eq_ok.trans (iff_and_self.2 fun _ => by simp)
  | cons p others ih =>
    have htake : ∀ (l m : List UInt16) (k : ℕ), (l.take k ++ m).take k = (l ++ m).take k := by
      intro l m k
      rw [List.take_append, List.take_append, List.take_take, Nat.min_self, List.length_take]
      congr 2
      omega
    have hnext := @ih ((ports ++ [p.port]).take SW_FILTER_PORTS_MAX)
      ((List.length_take_le _ _))
    rw [htake, List.append_assoc] at hnext
    rw [List.foldlM_cons, bind_eq_ok, List.forall_mem_cons, List.map_cons]
    constructor
    · rintro ⟨mid, hmid, h⟩
      obtain ⟨hle, rfl⟩ := (portnumsMore_eq_ok hlen).1 hmid
      exact ⟨⟨hle, (hnext.1 h).1⟩, (hnext.1 h).2⟩
    · rintro ⟨⟨hle, hothers⟩, h⟩
      exact ⟨_, (portnumsMore_eq_ok hlen).2 ⟨hle, rfl⟩, hnext.2 ⟨hothers, h⟩⟩

theorem portnumsMeaning_eq_ok {first : Numeral} {others : List Numeral} {ports : List UInt16} :
    portnumsMeaning first others = .ok ports ↔
      (∀ p ∈ first :: others, p.value ≤ 65535) ∧ ports = storedPorts first others := by
  cases others with
  | nil =>
    rw [portnumsMeaning, bind_eq_ok, List.forall_mem_singleton]
    constructor
    · rintro ⟨z, hz, h⟩
      obtain ⟨hle, rfl⟩ := Numeral.portnum_eq_ok.1 hz
      exact ⟨hle, (Except.ok.inj h).symm⟩
    · rintro ⟨hle, rfl⟩
      exact ⟨first.value, Numeral.portnum_eq_ok.2 ⟨hle, rfl⟩, rfl⟩
  | cons second others =>
    have hothers := @foldlM_portnumsMore_eq_ok [second.port, first.port] ports others
      (by simp [SW_FILTER_PORTS_MAX])
    rw [portnumsMeaning, bind_eq_ok, List.forall_mem_cons, List.forall_mem_cons]
    constructor
    · rintro ⟨z, hz, h⟩
      obtain ⟨z', hz', h⟩ := bind_eq_ok.1 h
      obtain ⟨hle, rfl⟩ := Numeral.portnum_eq_ok.1 hz
      obtain ⟨hle', rfl⟩ := Numeral.portnum_eq_ok.1 hz'
      exact ⟨⟨hle, hle', (hothers.1 h).1⟩, (hothers.1 h).2⟩
    · rintro ⟨⟨hle, hle', hall⟩, h⟩
      exact ⟨first.value, Numeral.portnum_eq_ok.2 ⟨hle, rfl⟩,
        bind_eq_ok.2 ⟨second.value, Numeral.portnum_eq_ok.2 ⟨hle', rfl⟩, hothers.2 ⟨hall, h⟩⟩⟩

/-- **The first eight ports are stored**, in another order. -/
theorem storedPorts_perm (first : Numeral) (others : List Numeral) :
    (storedPorts first others).Perm
      (((first :: others).take SW_FILTER_PORTS_MAX).map Numeral.port) := by
  cases others with
  | nil => exact List.Perm.refl _
  | cons second others =>
    show (second.port :: first.port :: (others.map Numeral.port).take 6).Perm
      (first.port :: second.port :: (others.take 6).map Numeral.port)
    rw [List.map_take]
    exact List.Perm.swap _ _ _

namespace PortText

/-- The ports of a condition. -/
def numerals : PortText → List Numeral
  | .set _ first others => first :: others
  | .compare _ p => [p]
  | .range lo hi => [lo, hi]

/-- Only a set of ports may stand in a rule without a protocol. -/
def NeedsProto : PortText → Prop
  | .set _ _ _ => False
  | _ => True

structure Accepted (proto : UInt8) (t : PortText) : Prop where
  portnum : ∀ p ∈ t.numerals, p.value ≤ 65535
  proto : t.NeedsProto → proto ≠ 0

def store (target : FilterTarget) : PortText → FilterTarget
  | .set op first others => { target with ports := storedPorts first others, op := op.op }
  | .compare op p => { target with ports := [p.port], op := op.op }
  | .range lo hi => { target with op := .rg, portLo := lo.port, portHi := hi.port }

theorem meaning_eq_ok {proto : UInt8} {target x : FilterTarget} {t : PortText} :
    t.meaning proto target = .ok x ↔ t.Accepted proto ∧ x = t.store target := by
  cases t with
  | set op first others =>
    rw [meaning, bind_eq_ok]
    constructor
    · rintro ⟨ports, hports, h⟩
      obtain ⟨hle, rfl⟩ := portnumsMeaning_eq_ok.1 hports
      exact ⟨⟨hle, False.elim⟩, (Except.ok.inj h).symm⟩
    · rintro ⟨hacc, rfl⟩
      exact ⟨_, portnumsMeaning_eq_ok.2 ⟨hacc.portnum, rfl⟩, rfl⟩
  | compare op p =>
    rw [meaning, bind_eq_ok]
    constructor
    · rintro ⟨z, hz, h⟩
      obtain ⟨hle, rfl⟩ := Numeral.portnum_eq_ok.1 hz
      split at h
      · cases h
      · rename_i hproto
        exact ⟨⟨by simpa [numerals] using hle, fun _ => hproto⟩, (Except.ok.inj h).symm⟩
    · rintro ⟨hacc, rfl⟩
      refine ⟨p.value, Numeral.portnum_eq_ok.2 ⟨hacc.portnum p (by simp [numerals]), rfl⟩, ?_⟩
      rw [if_neg (hacc.proto trivial)]
      rfl
  | range lo hi =>
    rw [meaning, bind_eq_ok]
    constructor
    · rintro ⟨z, hz, h⟩
      obtain ⟨z', hz', h⟩ := bind_eq_ok.1 h
      obtain ⟨hle, rfl⟩ := Numeral.portnum_eq_ok.1 hz
      obtain ⟨hle', rfl⟩ := Numeral.portnum_eq_ok.1 hz'
      split at h
      · cases h
      · rename_i hproto
        exact ⟨⟨by simpa [numerals] using ⟨hle, hle'⟩, fun _ => hproto⟩, (Except.ok.inj h).symm⟩
    · rintro ⟨hacc, rfl⟩
      refine ⟨lo.value, Numeral.portnum_eq_ok.2 ⟨hacc.portnum lo (by simp [numerals]), rfl⟩,
        bind_eq_ok.2 ⟨hi.value,
          Numeral.portnum_eq_ok.2 ⟨hacc.portnum hi (by simp [numerals]), rfl⟩, ?_⟩⟩
      rw [if_neg (hacc.proto trivial)]
      rfl

end PortText

/-! ## Networks -/

/-- The length of a prefix that the parser takes. -/
def MaskText.Accepted : MaskText → Prop
  | .mask _ => True
  | .slash n => 0 ≤ n.value ∧ n.value ≤ 32

def storedMask (net : NetDb) : Option MaskText → UInt32
  | none => 0xffffffff
  | some (.mask m) => net.inetAddr m.word
  | some (.slash n) => 0xffffffff <<< UInt32.ofInt (32 - n.value)

theorem storedMask_slash (net : NetDb) {k : Numeral} (hk : k.decimal ≤ 32) :
    storedMask net (some (.slash k)) = 0xffffffff <<< UInt32.ofNat (32 - k.decimal) := by
  rw [storedMask, k.value_of_lt (by omega), UInt32.ofInt]
  congr 2
  omega

theorem maskMeaning_eq_ok {net : NetDb} {m : Option MaskText} {x : UInt32} :
    maskMeaning net m = .ok x ↔ (∀ t ∈ m, t.Accepted) ∧ x = storedMask net m := by
  rcases m with _ | m | n
  · exact absent_eq_ok
  · refine ⟨fun h => ⟨?_, (Except.ok.inj h).symm⟩, fun h => congrArg _ h.2.symm⟩
    intro t ht
    rw [← Option.some.inj ht]
    trivial
  · have hacc : (∀ t ∈ some (MaskText.slash n), t.Accepted) ↔ ¬ (n.value < 0 ∨ n.value > 32) := by
      rw [forall_mem_some, MaskText.Accepted]
      omega
    rw [hacc, maskMeaning]
    split
    · rename_i h
      exact iff_of_false error_ne_ok fun hnot => absurd h hnot.1
    · rename_i h
      exact ok_eq_ok.trans (iff_and_self.2 fun _ => h)

namespace ObjectText

/-- What the parser checks of an object in a rule for `proto`. -/
structure Accepted (proto : UInt8) (o : ObjectText) : Prop where
  mask : ∀ n ∈ o.network?, ∀ t ∈ n.mask, t.Accepted
  port : ∀ t ∈ o.port?, t.Accepted proto

def storeNetwork (net : NetDb) (target : FilterTarget) (o : ObjectText) : FilterTarget :=
  o.network?.elim target fun n =>
    { target with ip := net.inetAddr n.host.word, mask := storedMask net n.mask }

def store (net : NetDb) (target : FilterTarget) (o : ObjectText) : FilterTarget :=
  o.port?.elim (o.storeNetwork net target) (PortText.store (o.storeNetwork net target))

/-- A port condition does not change what is stored of a network. -/
theorem store_of_network {net : NetDb} {o : ObjectText} {n : NetworkText}
    (hn : o.network? = some n) (target : FilterTarget) :
    (o.store net target).ip = net.inetAddr n.host.word ∧
      (o.store net target).mask = storedMask net n.mask := by
  rw [store, storeNetwork, hn]
  rcases o.port? with _ | t
  · exact ⟨rfl, rfl⟩
  · cases t <;> exact ⟨rfl, rfl⟩

theorem meaning_eq_ok {net : NetDb} {proto : UInt8} {target x : FilterTarget} {o : ObjectText} :
    o.meaning net proto target = .ok x ↔ o.Accepted proto ∧ x = o.store net target := by
  cases o with
  | network n p =>
    have hnetwork : ∀ y, n.meaning net target = .ok y ↔ (∀ t ∈ n.mask, t.Accepted) ∧
        y = (ObjectText.network n p).storeNetwork net target := by
      intro y
      rw [NetworkText.meaning, bind_eq_ok]
      constructor
      · rintro ⟨mask, hmask, h⟩
        obtain ⟨hacc, rfl⟩ := maskMeaning_eq_ok.1 hmask
        exact ⟨hacc, (Except.ok.inj h).symm⟩
      · rintro ⟨hacc, rfl⟩
        exact ⟨_, maskMeaning_eq_ok.2 ⟨hacc, rfl⟩, rfl⟩
    have hport : ∀ y : FilterTarget,
        p.elim (.ok y) (PortText.meaning proto y) = .ok x ↔ (∀ t ∈ p, t.Accepted proto) ∧
          x = p.elim y (PortText.store y) := by
      intro y
      cases p with
      | none => exact absent_eq_ok
      | some t =>
        rw [forall_mem_some]
        exact PortText.meaning_eq_ok
    rw [meaning, bind_eq_ok]
    constructor
    · rintro ⟨y, hy, h⟩
      obtain ⟨hmask, rfl⟩ := (hnetwork y).1 hy
      obtain ⟨hacc, rfl⟩ := (hport _).1 h
      exact ⟨⟨forall_mem_some.2 hmask, hacc⟩, rfl⟩
    · rintro ⟨hacc, rfl⟩
      exact ⟨_, (hnetwork _).2 ⟨hacc.mask n rfl, rfl⟩, (hport _).2 ⟨hacc.port, rfl⟩⟩
  | port p =>
    refine PortText.meaning_eq_ok.trans (and_congr_left' ⟨fun h => ⟨?_, ?_⟩, fun h => ?_⟩)
    · intro n hn
      cases hn
    · exact forall_mem_some.2 h
    · exact h.port p rfl

end ObjectText

/-! ## The other parts of a rule -/

/-- The number of a protocol, if it has one. -/
def ProtoText.number? (net : NetDb) : ProtoText → Option ℤ
  | .number n => some n.value
  | .name s => net.protobyname s.word

/-- The protocol that is stored; 0 without one. -/
def storedProto (net : NetDb) (t : Option ProtoText) : UInt8 :=
  (t.bind (ProtoText.number? net)).elim 0 UInt8.ofInt

theorem proto_eq_ok {net : NetDb} {rule x : FilterRule} {o : Option ProtoText}
    (hrule : rule.proto = 0) :
    o.elim (.ok rule) (ProtoText.meaning net rule) = .ok x ↔
      (∀ t ∈ o, (t.number? net).isSome) ∧ x = { rule with proto := storedProto net o } := by
  rcases o with _ | n | s
  · have hsame : { rule with proto := storedProto net none } = rule := by
      rw [show storedProto net none = rule.proto from hrule.symm]
    rw [hsame]
    exact absent_eq_ok
  · refine ⟨fun h => ⟨?_, (Except.ok.inj h).symm⟩, fun h => congrArg _ h.2.symm⟩
    rw [forall_mem_some]
    rfl
  · rw [forall_mem_some, Option.elim_some, ProtoText.meaning, ProtoText.number?, storedProto,
      Option.bind_some, ProtoText.number?]
    cases net.protobyname s.word with
    | none => exact iff_of_false error_ne_ok fun h => by cases h.1
    | some n => exact ok_eq_ok.trans (iff_and_self.2 fun _ => rfl)

theorem src_eq_ok {net : NetDb} {rule x : FilterRule} {o : Option ObjectText} :
    o.elim (.ok rule) (srcMeaning net rule) = .ok x ↔ (∀ t ∈ o, t.Accepted rule.proto) ∧
      x = { rule with src := o.elim rule.src (ObjectText.store net rule.src) } := by
  cases o with
  | none => exact absent_eq_ok
  | some o =>
    rw [forall_mem_some, Option.elim_some, srcMeaning, bind_eq_ok]
    constructor
    · rintro ⟨src, hsrc, h⟩
      obtain ⟨hacc, rfl⟩ := ObjectText.meaning_eq_ok.1 hsrc
      exact ⟨hacc, (Except.ok.inj h).symm⟩
    · rintro ⟨hacc, rfl⟩
      exact ⟨_, ObjectText.meaning_eq_ok.2 ⟨hacc, rfl⟩, rfl⟩

theorem dst_eq_ok {net : NetDb} {rule x : FilterRule} {o : Option ObjectText} :
    o.elim (.ok rule) (dstMeaning net rule) = .ok x ↔ (∀ t ∈ o, t.Accepted rule.proto) ∧
      x = { rule with dst := o.elim rule.dst (ObjectText.store net rule.dst) } := by
  cases o with
  | none => exact absent_eq_ok
  | some o =>
    rw [forall_mem_some, Option.elim_some, dstMeaning, bind_eq_ok]
    constructor
    · rintro ⟨dst, hdst, h⟩
      obtain ⟨hacc, rfl⟩ := ObjectText.meaning_eq_ok.1 hdst
      exact ⟨hacc, (Except.ok.inj h).symm⟩
    · rintro ⟨hacc, rfl⟩
      exact ⟨_, ObjectText.meaning_eq_ok.2 ⟨hacc, rfl⟩, rfl⟩

/-- Every letter of the word is one of a flag. -/
def Name.IsFlags (s : Name) : Prop := (FilterParser.tcpFlags 0 s.word).isSome

/-- The bits that are stored of a word of flags. -/
def Name.bits (s : Name) : Int8 := (FilterParser.tcpFlags 0 s.word).getD 0

theorem Name.flag_eq_ok {s : Name} {bits : Int8} :
    s.flag = .ok bits ↔ s.IsFlags ∧ bits = s.bits := by
  rw [flag, IsFlags, Name.bits]
  cases FilterParser.tcpFlags 0 s.word with
  | none => exact iff_of_false error_ne_ok fun h => by cases h.1
  | some flags => exact ok_eq_ok.trans (iff_and_self.2 fun _ => rfl)

structure FlagsText.Accepted (f : FlagsText) : Prop where
  set : f.set.IsFlags
  mask : ∀ m ∈ f.mask, m.IsFlags

/-- A rule with flags is one for TCP if it is for none. -/
def FlagsText.store (rule : FilterRule) (f : FlagsText) : FilterRule :=
  { rule with
    proto := if rule.proto = 0 then 6 else rule.proto
    flags := ⟨f.set.bits, f.mask.elim rule.flags.mask Name.bits⟩ }

theorem flags_eq_ok {rule x : FilterRule} {o : Option FlagsText} :
    o.elim (.ok rule) (FlagsText.meaning rule) = .ok x ↔
      (∀ f ∈ o, f.Accepted) ∧ x = o.elim rule (FlagsText.store rule) := by
  rcases o with _ | ⟨set, mask⟩
  · exact absent_eq_ok
  rw [forall_mem_some, Option.elim_some, FlagsText.meaning, bind_eq_ok]
  cases mask with
  | none =>
    constructor
    · rintro ⟨bits, hbits, h⟩
      obtain ⟨hset, rfl⟩ := Name.flag_eq_ok.1 hbits
      exact ⟨⟨hset, fun m hm => by cases hm⟩, (Except.ok.inj h).symm⟩
    · rintro ⟨hacc, rfl⟩
      exact ⟨_, Name.flag_eq_ok.2 ⟨hacc.set, rfl⟩, rfl⟩
  | some m =>
    constructor
    · rintro ⟨bits, hbits, h⟩
      obtain ⟨bits', hbits', h⟩ := bind_eq_ok.1 h
      obtain ⟨hset, rfl⟩ := Name.flag_eq_ok.1 hbits
      obtain ⟨hmask, rfl⟩ := Name.flag_eq_ok.1 hbits'
      exact ⟨⟨hset, forall_mem_some.2 hmask⟩, (Except.ok.inj h).symm⟩
    · rintro ⟨hacc, rfl⟩
      exact ⟨_, Name.flag_eq_ok.2 ⟨hacc.set, rfl⟩,
        bind_eq_ok.2 ⟨_, Name.flag_eq_ok.2 ⟨hacc.mask m rfl, rfl⟩, rfl⟩⟩

def RedirText.store (net : NetDb) (verdict : FilterVerdict) (r : RedirText) : FilterVerdict :=
  { verdict with dnatIp := net.inetAddr r.host.word, dnatPort := r.port.port }

theorem redir_eq_ok {net : NetDb} {rule x : FilterRule} {o : Option RedirText} :
    o.elim (.ok rule) (RedirText.meaning net rule) = .ok x ↔
      (∀ r ∈ o, r.port.value ≤ 65535) ∧
        x = { rule with
          verdict := o.elim rule.verdict (RedirText.store net rule.verdict) } := by
  cases o with
  | none => exact absent_eq_ok
  | some r =>
    rw [forall_mem_some, Option.elim_some, RedirText.meaning, bind_eq_ok]
    constructor
    · rintro ⟨z, hz, h⟩
      obtain ⟨hle, rfl⟩ := Numeral.portnum_eq_ok.1 hz
      exact ⟨hle, (Except.ok.inj h).symm⟩
    · rintro ⟨hle, rfl⟩
      exact ⟨_, Numeral.portnum_eq_ok.2 ⟨hle, rfl⟩, rfl⟩

def storeRate (verdict : FilterVerdict) (n : Numeral) : FilterVerdict :=
  { verdict with
    action := verdict.action ||| SW_FILTER_ACTION_SHAPE
    shapeRate := n.value }

theorem rate_eq_ok {rule x : FilterRule} {o : Option Numeral} :
    o.elim (.ok rule) (rateMeaning rule) = .ok x ↔
      x = { rule with verdict := o.elim rule.verdict (storeRate rule.verdict) } := by
  cases o with
  | none => exact ok_eq_ok
  | some n => exact ok_eq_ok

/-! ## Rules -/

namespace RuleText

/-- What the parser checks of a rule. -/
structure Accepted (net : NetDb) (r : RuleText) : Prop where
  proto : ∀ t ∈ r.proto, (t.number? net).isSome
  src : ∀ o ∈ r.src, o.Accepted (storedProto net r.proto)
  dst : ∀ o ∈ r.dst, o.Accepted (storedProto net r.proto)
  flags : ∀ f ∈ r.flags, f.Accepted
  redir : ∀ d ∈ r.redir, d.port.value ≤ 65535

/-- The verdict of a rule. -/
def storedVerdict (net : NetDb) (r : RuleText) : FilterVerdict :=
  let verdict := r.action.rule.verdict
  let verdict := r.redir.elim verdict (RedirText.store net verdict)
  r.rate.elim verdict (storeRate verdict)

/-- The rule that is built, without its number. -/
def store (net : NetDb) (r : RuleText) : FilterRule :=
  let rule : FilterRule :=
    { src := r.src.elim FilterParser.emptyTarget (ObjectText.store net FilterParser.emptyTarget)
      dst := r.dst.elim FilterParser.emptyTarget (ObjectText.store net FilterParser.emptyTarget)
      flags := ⟨0, 0⟩
      proto := storedProto net r.proto
      verdict := r.storedVerdict net
      num := 0 }
  r.flags.elim rule (FlagsText.store rule)

/-- The parts of a rule are stored one after the other. -/
def storeParts (net : NetDb) (r : RuleText) : FilterRule :=
  let rule := { r.action.rule with proto := storedProto net r.proto }
  let rule := { rule with src := r.src.elim rule.src (ObjectText.store net rule.src) }
  let rule := { rule with dst := r.dst.elim rule.dst (ObjectText.store net rule.dst) }
  let rule := r.flags.elim rule (FlagsText.store rule)
  let rule :=
    { rule with verdict := r.redir.elim rule.verdict (RedirText.store net rule.verdict) }
  { rule with verdict := r.rate.elim rule.verdict (storeRate rule.verdict) }

theorem storeParts_eq (net : NetDb) (r : RuleText) : r.storeParts net = r.store net := by
  rcases r with ⟨action, dir, proto, src, dst, flags, redir, rate, -, -⟩
  cases action <;> cases flags <;> rfl

/-- **The meaning of a rule.** -/
theorem meaning_eq_ok {net : NetDb} {r : RuleText} {y : MatchMode × FilterRule} :
    r.meaning net = .ok y ↔ r.Accepted net ∧ y = (r.dir, r.store net) := by
  have hzero : r.action.rule.proto = 0 := by cases r.action <;> rfl
  rw [← storeParts_eq, meaning, bind_eq_ok]
  constructor
  · rintro ⟨r₁, h₁, h⟩
    obtain ⟨r₂, h₂, h⟩ := bind_eq_ok.1 h
    obtain ⟨r₃, h₃, h⟩ := bind_eq_ok.1 h
    obtain ⟨r₄, h₄, h⟩ := bind_eq_ok.1 h
    obtain ⟨r₅, h₅, h⟩ := bind_eq_ok.1 h
    obtain ⟨r₆, h₆, h⟩ := bind_eq_ok.1 h
    obtain ⟨hproto, rfl⟩ := (proto_eq_ok hzero).1 h₁
    obtain ⟨hsrc, rfl⟩ := src_eq_ok.1 h₂
    obtain ⟨hdst, rfl⟩ := dst_eq_ok.1 h₃
    obtain ⟨hflags, rfl⟩ := flags_eq_ok.1 h₄
    obtain ⟨hredir, rfl⟩ := redir_eq_ok.1 h₅
    obtain rfl := rate_eq_ok.1 h₆
    exact ⟨⟨hproto, hsrc, hdst, hflags, hredir⟩, (Except.ok.inj h).symm⟩
  · rintro ⟨hacc, rfl⟩
    exact ⟨_, (proto_eq_ok hzero).2 ⟨hacc.proto, rfl⟩,
      bind_eq_ok.2 ⟨_, src_eq_ok.2 ⟨hacc.src, rfl⟩,
        bind_eq_ok.2 ⟨_, dst_eq_ok.2 ⟨hacc.dst, rfl⟩,
          bind_eq_ok.2 ⟨_, flags_eq_ok.2 ⟨hacc.flags, rfl⟩,
            bind_eq_ok.2 ⟨_, redir_eq_ok.2 ⟨hacc.redir, rfl⟩,
              bind_eq_ok.2 ⟨_, rate_eq_ok.2 rfl, rfl⟩⟩⟩⟩⟩⟩

end RuleText

/-! ## Texts -/

theorem mapM_meaning_eq_ok {net : NetDb} {rs : List RuleText}
    {rules : List (MatchMode × FilterRule)} :
    rs.mapM (RuleText.meaning net) = .ok rules ↔
      (∀ r ∈ rs, r.Accepted net) ∧ rules = rs.map fun r => (r.dir, r.store net) := by
  induction rs generalizing rules with
  | nil =>
    rw [List.mapM_nil, List.map_nil]
    exact ok_eq_ok.trans (iff_and_self.2 fun _ => by simp)
  | cons r rs ih =>
    rw [List.mapM_cons, bind_eq_ok, List.forall_mem_cons]
    constructor
    · rintro ⟨y, hy, h⟩
      obtain ⟨ys, hys, h⟩ := bind_eq_ok.1 h
      obtain ⟨hacc, rfl⟩ := RuleText.meaning_eq_ok.1 hy
      obtain ⟨hall, rfl⟩ := ih.1 hys
      exact ⟨⟨hacc, hall⟩, (Except.ok.inj h).symm⟩
    · rintro ⟨⟨hacc, hall⟩, rfl⟩
      exact ⟨_, RuleText.meaning_eq_ok.2 ⟨hacc, rfl⟩,
        bind_eq_ok.2 ⟨_, ih.2 ⟨hall, rfl⟩, rfl⟩⟩

/-- The rules of one direction that are stored of a text. -/
def storedRuleset (net : NetDb) (dir : MatchMode) (rs : List RuleText) : Ruleset :=
  ((rs.filter fun r => r.dir = dir).map (RuleText.store net)).mapIdx
    fun num rule => { rule with num }

theorem ruleset_store (net : NetDb) (dir : MatchMode) (rs : List RuleText) :
    ruleset dir (rs.map fun r => (r.dir, r.store net)) = storedRuleset net dir rs := by
  have hfilter : ∀ f : MatchMode × FilterRule → Option FilterRule,
      (∀ d rule, f (d, rule) = if d = dir then some rule else none) →
        (rs.map fun r => (r.dir, r.store net)).filterMap f =
          (rs.filter fun r => r.dir = dir).map (RuleText.store net) := by
    intro f hf
    rw [List.filterMap_map]
    induction rs with
    | nil => rfl
    | cons r rs ih =>
      by_cases hdir : r.dir = dir
      · rw [List.filter_cons_of_pos (by simpa using hdir), List.map_cons, ← ih]
        exact List.filterMap_cons_some ((hf _ _).trans (if_pos hdir))
      · rw [List.filter_cons_of_neg (by simpa using hdir), ← ih]
        exact List.filterMap_cons_none ((hf _ _).trans (if_neg hdir))
  rw [ruleset, hfilter _ fun _ _ => rfl, storedRuleset]

/-- Of rules as they are written, that is what is stored. -/
theorem stored_of_written {net : NetDb} {text : List Char} {rs : List RuleText}
    {rsIn rsOut : Ruleset} (hrs : Written text rs)
    (h : filterParseRuleset net text = .ok (rsIn, rsOut)) :
    (∀ r ∈ rs, r.Accepted net) ∧ rsIn = storedRuleset net .inward rs ∧
      rsOut = storedRuleset net .outward rs := by
  rw [filterParseRuleset_of_written net hrs] at h
  cases hrules : rs.mapM (RuleText.meaning net) with
  | error e =>
    rw [hrules] at h
    cases h
  | ok rules =>
    rw [hrules] at h
    obtain ⟨hacc, rfl⟩ := mapM_meaning_eq_ok.1 hrules
    have hpair := Prod.mk.inj (Except.ok.inj h)
    rw [ruleset_store, ruleset_store] at hpair
    exact ⟨hacc, hpair.1.symm, hpair.2.symm⟩

/-- **What the parser accepts and what it stores then.** -/
theorem filterParseRuleset_eq_ok {net : NetDb} {text : List Char} {rsIn rsOut : Ruleset} :
    filterParseRuleset net text = .ok (rsIn, rsOut) ↔
      ∃ rs, Written text rs ∧ (∀ r ∈ rs, r.Accepted net) ∧
        rsIn = storedRuleset net .inward rs ∧ rsOut = storedRuleset net .outward rs := by
  constructor
  · intro h
    rw [filterParseRuleset] at h
    cases hall : TokenReader.all (FilterParser.rule net) .reject (scan text) with
    | error e =>
      rw [hall] at h
      cases h
    | ok rules =>
      rw [hall] at h
      obtain ⟨rs, hrs, -⟩ := exists_written hall
      exact ⟨rs, hrs, stored_of_written hrs (by rw [filterParseRuleset, hall, h])⟩
  · rintro ⟨rs, hrs, hacc, rfl, rfl⟩
    rw [filterParseRuleset_of_written net hrs, mapM_meaning_eq_ok.2 ⟨hacc, rfl⟩, Except.map,
      ruleset_store, ruleset_store]

/-- In the rules of a text for one direction, `x` is stored of `r`. -/
def Loaded (net : NetDb) (text : List Char) (dir : MatchMode) (r : RuleText) (x : FilterRule) :
    Prop :=
  ∃ (rs : List RuleText) (rsIn rsOut : Ruleset) (num : ℕ), Written text rs ∧
    filterParseRuleset net text = .ok (rsIn, rsOut) ∧
    (rs.filter fun r => r.dir = dir)[num]? = some r ∧
    (match dir with | .inward => rsIn | .outward => rsOut)[num]? = some x

theorem Loaded.stored {net : NetDb} {text : List Char} {dir : MatchMode} {r : RuleText}
    {x : FilterRule} (h : Loaded net text dir r x) :
    r.Accepted net ∧ ∃ num, x = { r.store net with num } := by
  obtain ⟨rs, rsIn, rsOut, num, hrs, hparse, hr, hx⟩ := h
  obtain ⟨hacc, rfl, rfl⟩ := stored_of_written hrs hparse
  have hx' : (storedRuleset net dir rs)[num]? = some x := by cases dir <;> exact hx
  rw [storedRuleset, List.getElem?_mapIdx, List.getElem?_map, hr] at hx'
  exact ⟨hacc r (List.mem_of_mem_filter (List.mem_of_getElem? hr)), num,
    (Option.some.inj hx').symm⟩

/-! ## Sides -/

/-- `from` and `to`. -/
inductive RuleSide
  | src | dst
  deriving DecidableEq, Repr

def RuleText.object (r : RuleText) : RuleSide → Option ObjectText
  | .src => r.src
  | .dst => r.dst

def FilterRule.target (x : FilterRule) : RuleSide → FilterTarget
  | .src => x.src
  | .dst => x.dst

theorem RuleText.target_store (net : NetDb) (r : RuleText) (side : RuleSide) :
    (r.store net).target side = (r.object side).elim FilterParser.emptyTarget
      (ObjectText.store net FilterParser.emptyTarget) := by
  rcases r with ⟨action, dir, proto, src, dst, flags, redir, rate, -, -⟩
  cases side <;> cases flags <;> rfl

/-- What is stored of a side of a loaded rule. -/
theorem Loaded.target {net : NetDb} {text : List Char} {dir : MatchMode} {r : RuleText}
    {x : FilterRule} (h : Loaded net text dir r x) {side : RuleSide} {o : ObjectText}
    (ho : r.object side = some o) :
    o.Accepted (storedProto net r.proto) ∧
      x.target side = o.store net FilterParser.emptyTarget := by
  obtain ⟨hacc, num, rfl⟩ := h.stored
  have htarget := r.target_store net side
  rw [ho] at htarget
  refine ⟨?_, ?_⟩
  · cases side with
    | src => exact hacc.src o ho
    | dst => exact hacc.dst o ho
  · cases side <;> exact htarget

/-- One protocol and two addresses, for texts of examples. -/
def NetDb.small : NetDb where
  protobyname w := if w = ['t', 'c', 'p'] then some 6 else none
  inetAddr w :=
    if w = "10.0.0.1".toList then 0x0a000001
    else if w = "10.0.0.0".toList then 0x0a000000
    else 0xffffffff

end Sweetspot
