import Sweetspot.Filter.Match
import Sweetspot.Filter.Stored

/-!
# What the conditions of a rule mean

A rule is written with port conditions and networks; a packet is matched against what was stored of
them.  Here the two are compared, over every port and every address.

* `PortText.Means`, `NetworkText.Contains`: what a condition says as it is written.
* `portCondition_iff`: which port conditions are matched so.
* `networkCondition_iff`: which networks are.
-/

namespace Sweetspot

/-! ## Ports -/

namespace PortText

/-- What the condition says of a port. -/
def Means (port : UInt16) : PortText → Prop
  | .set .eq first others => port.toNat ∈ (first :: others).map Numeral.decimal
  | .set .ne first others => port.toNat ∉ (first :: others).map Numeral.decimal
  | .compare .lt p => port.toNat < p.decimal
  | .compare .le p => port.toNat ≤ p.decimal
  | .compare .gt p => p.decimal < port.toNat
  | .compare .ge p => p.decimal ≤ port.toNat
  | .range lo hi => lo.decimal ≤ port.toNat ∧ port.toNat ≤ hi.decimal

/-- The conditions that are matched as they are written: a set to be in names no port beyond the
eighth that is not among the first eight, a set to be out of names one port only, and a range is
not that of port 0. -/
def Matchable : PortText → Prop
  | .set .eq first others =>
    ∀ p ∈ (first :: others).drop SW_FILTER_PORTS_MAX,
      p.decimal ∈ ((first :: others).take SW_FILTER_PORTS_MAX).map Numeral.decimal
  | .set .ne first others => ∀ p ∈ others, p.decimal = first.decimal
  | .compare _ _ => True
  | .range lo hi => ¬ (lo.decimal = 0 ∧ hi.decimal = 0)

end PortText

theorem matchPort_eq {tg : FilterTarget} (hop : tg.op = .eq) (hports : tg.ports ≠ [])
    (port : UInt16) : matchPort tg port ↔ port ∈ tg.ports := by
  obtain ⟨p, ps, h⟩ := List.exists_cons_of_ne_nil hports
  simp only [matchPort, hop, h, List.any_eq_true, decide_eq_true_eq]
  exact ⟨fun ⟨q, hq, heq⟩ => heq ▸ hq, fun hport => ⟨port, hport, rfl⟩⟩

theorem matchPort_ne {tg : FilterTarget} (hop : tg.op = .ne) (hports : tg.ports ≠ [])
    (port : UInt16) : matchPort tg port ↔ ∃ p ∈ tg.ports, p ≠ port := by
  obtain ⟨p, ps, h⟩ := List.exists_cons_of_ne_nil hports
  simp [matchPort, hop, h]

/-- A port is stored if it is written among the first eight. -/
theorem mem_storedPorts {first : Numeral} {others : List Numeral}
    (hfits : ∀ p ∈ first :: others, p.decimal ≤ 65535) (port : UInt16) :
    port ∈ storedPorts first others ↔
      port.toNat ∈ ((first :: others).take SW_FILTER_PORTS_MAX).map Numeral.decimal := by
  rw [(storedPorts_perm first others).mem_iff, List.mem_map, List.mem_map]
  constructor
  · rintro ⟨p, hp, rfl⟩
    exact ⟨p, hp, (Numeral.toNat_port (hfits p (List.mem_of_mem_take hp))).symm⟩
  · rintro ⟨p, hp, h⟩
    refine ⟨p, hp, UInt16.toNat_inj.1 ?_⟩
    rw [Numeral.toNat_port (hfits p (List.mem_of_mem_take hp)), h]

theorem first_mem_storedPorts (first : Numeral) (others : List Numeral) :
    first.port ∈ storedPorts first others := by
  rw [(storedPorts_perm first others).mem_iff]
  exact List.mem_map_of_mem (List.mem_cons_self : first ∈ first :: others.take 7)

section

variable {first : Numeral} {others : List Numeral}

/-- Every port that is written is stored just if none of those left out is new. -/
theorem stored_eq_iff (hfits : ∀ p ∈ first :: others, p.decimal ≤ 65535) :
    (∀ port : UInt16, port ∈ storedPorts first others ↔
      port.toNat ∈ (first :: others).map Numeral.decimal) ↔
    ∀ p ∈ (first :: others).drop SW_FILTER_PORTS_MAX,
      p.decimal ∈ ((first :: others).take SW_FILTER_PORTS_MAX).map Numeral.decimal := by
  constructor
  · intro h p hp
    have hmem : p ∈ first :: others := List.mem_of_mem_drop hp
    have hport : p.port.toNat = p.decimal := Numeral.toNat_port (hfits p hmem)
    have hstored := (h p.port).2 (by rw [hport]; exact List.mem_map_of_mem hmem)
    rw [mem_storedPorts hfits, hport] at hstored
    exact hstored
  · intro h port
    rw [mem_storedPorts hfits]
    constructor
    · intro hport
      obtain ⟨p, hp, hdecimal⟩ := List.mem_map.1 hport
      rw [← hdecimal]
      exact List.mem_map_of_mem (List.mem_of_mem_take hp)
    · intro hport
      obtain ⟨p, hp, hdecimal⟩ := List.mem_map.1 hport
      rw [← List.take_append_drop SW_FILTER_PORTS_MAX (first :: others)] at hp
      rw [← hdecimal]
      rcases List.mem_append.1 hp with hfirst | hlast
      · exact List.mem_map_of_mem hfirst
      · exact h p hlast

/-- Some stored port differs from those that are not written, and from no other, just if one port
is written throughout. -/
theorem stored_ne_iff (hfits : ∀ p ∈ first :: others, p.decimal ≤ 65535) :
    (∀ port : UInt16, (∃ p ∈ storedPorts first others, p ≠ port) ↔
      port.toNat ∉ (first :: others).map Numeral.decimal) ↔
    ∀ p ∈ others, p.decimal = first.decimal := by
  have hport : ∀ p ∈ first :: others, p.port.toNat = p.decimal :=
    fun p hp => Numeral.toNat_port (hfits p hp)
  constructor
  · intro h p hp
    have hmem : p ∈ first :: others := List.mem_cons_of_mem first hp
    have hnone : ¬ ∃ q ∈ storedPorts first others, q ≠ p.port := by
      rw [h, hport p hmem, not_not]
      exact List.mem_map_of_mem hmem
    have hfirst : first.port = p.port := by
      by_contra hne
      exact hnone ⟨first.port, first_mem_storedPorts first others, hne⟩
    rw [← hport p hmem, ← hport first List.mem_cons_self, hfirst]
  · intro h port
    have hall : ∀ p ∈ first :: others, p.decimal = first.decimal := by
      rw [List.forall_mem_cons]
      exact ⟨rfl, h⟩
    have hwritten : port.toNat ∈ (first :: others).map Numeral.decimal ↔
        first.port = port := by
      rw [← UInt16.toNat_inj, hport first List.mem_cons_self, List.mem_map]
      constructor
      · rintro ⟨p, hp, hdecimal⟩
        rw [← hall p hp, hdecimal]
      · intro hdecimal
        exact ⟨first, List.mem_cons_self, hdecimal⟩
    rw [hwritten]
    constructor
    · rintro ⟨q, hq, hne⟩ hfirst
      obtain ⟨p, hp, hdecimal⟩ := List.mem_map.1 ((mem_storedPorts hfits q).1 hq)
      have hmem := List.mem_of_mem_take hp
      apply hne
      rw [← hfirst, ← UInt16.toNat_inj, hport first List.mem_cons_self, ← hdecimal,
        hall p hmem]
    · intro hne
      exact ⟨first.port, first_mem_storedPorts first others, hne⟩

end

theorem matchPort_store_iff {t : PortText} (hfits : ∀ p ∈ t.numerals, p.decimal ≤ 65535)
    (tg : FilterTarget) :
    (∀ port, matchPort (t.store tg) port ↔ t.Means port) ↔ t.Matchable := by
  cases t with
  | set op first others =>
    have hports : storedPorts first others ≠ [] :=
      List.ne_nil_of_mem (first_mem_storedPorts first others)
    cases op with
    | eq =>
      rw [PortText.Matchable, ← stored_eq_iff hfits]
      exact forall_congr' fun port => iff_congr (matchPort_eq rfl hports port) Iff.rfl
    | ne =>
      rw [PortText.Matchable, ← stored_ne_iff hfits]
      exact forall_congr' fun port => iff_congr (matchPort_ne rfl hports port) Iff.rfl
  | compare op p =>
    have hport : p.port.toNat = p.decimal :=
      Numeral.toNat_port (hfits p (List.mem_singleton_self p))
    refine iff_of_true (fun port => ?_) trivial
    cases op <;>
      simp only [PortText.store, CompareOther.op, matchPort, PortText.Means, decide_eq_true_eq,
        ← hport, gt_iff_lt, ge_iff_le, UInt16.lt_iff_toNat_lt, UInt16.le_iff_toNat_le]
  | range lo hi =>
    have hlo : lo.port.toNat = lo.decimal :=
      Numeral.toNat_port (hfits lo List.mem_cons_self)
    have hhi : hi.port.toNat = hi.decimal :=
      Numeral.toNat_port (hfits hi (List.mem_cons_of_mem _ List.mem_cons_self))
    have hmatch : ∀ port : UInt16, matchPort (PortText.store tg (.range lo hi)) port ↔
        (lo.decimal = 0 ∧ hi.decimal = 0) ∨
          (lo.decimal ≤ port.toNat ∧ port.toNat ≤ hi.decimal) := by
      intro port
      simp only [PortText.store, matchPort, decide_eq_true_eq, ← hlo, ← hhi, ge_iff_le,
        UInt16.le_iff_toNat_le, ← UInt16.toNat_inj, UInt16.toNat_zero]
    simp only [hmatch, PortText.Means, PortText.Matchable]
    constructor
    · rintro h ⟨hlo', hhi'⟩
      have hone := (h 1).1 (Or.inl ⟨hlo', hhi'⟩)
      rw [hhi'] at hone
      exact absurd hone.2 (by decide)
    · intro h port
      exact or_iff_right h

/-- **Which port conditions are matched as they are written.** -/
theorem portCondition_iff {net : NetDb} {text : List Char} {dir : MatchMode} {r : RuleText}
    {x : FilterRule} (h : Loaded net text dir r x) {side : RuleSide} {o : ObjectText}
    (ho : r.object side = some o) {t : PortText} (ht : o.port? = some t)
    (hfits : ∀ p ∈ t.numerals, p.decimal ≤ 65535) :
    (∀ port, matchPort (x.target side) port ↔ t.Means port) ↔ t.Matchable := by
  rw [(h.target ho).2, ObjectText.store, ht]
  exact matchPort_store_iff hfits _

/-- `pass in to port` and a condition. -/
def passPorts (t : PortText) : RuleText :=
  .passIn none none (some (.port t))

def webPorts (op : CompareEqNe) : PortText :=
  .set op ⟨['8', '0'], rfl⟩ [⟨['4', '4', '3'], rfl⟩]

theorem loaded_webPorts : Loaded .small "pass in to port eq 80,443".toList .inward
    (passPorts (webPorts .eq)) ((passPorts (webPorts .eq)).store .small) :=
  ⟨[passPorts (webPorts .eq)], [(passPorts (webPorts .eq)).store .small], [], 0, by decide +kernel,
    by decide +kernel, rfl, rfl⟩

/-- A rule for two ports accepts these two. -/
theorem portCondition_iff_web :
    (∀ port, matchPort (((passPorts (webPorts .eq)).store .small).target .dst) port ↔
      (webPorts .eq).Means port) ↔ (webPorts .eq).Matchable :=
  portCondition_iff loaded_webPorts rfl rfl (by decide +kernel)

/-- A rule for all but two ports accepts one of the two. -/
theorem portCondition_ne_two :
    Loaded .small "pass in to port ne 80,443".toList .inward (passPorts (webPorts .ne))
        ((passPorts (webPorts .ne)).store .small) ∧
      matchPort ((passPorts (webPorts .ne)).store .small).dst 80 ∧
      ¬ (webPorts .ne).Means 80 := by
  refine ⟨⟨[passPorts (webPorts .ne)], [(passPorts (webPorts .ne)).store .small], [], 0,
    by decide +kernel, by decide +kernel, rfl, rfl⟩, by decide +kernel, ?_⟩
  exact fun h => h List.mem_cons_self

/-! ## Networks -/

namespace NetworkText

variable (net : NetDb)

/-- The address of a network, as it is written. -/
def address (n : NetworkText) : UInt32 := net.inetAddr n.host.word

/-- What the network says of an address: to be in it is to agree with its address on the bits of
the mask or on as many as the prefix is long. -/
def Contains (ip : UInt32) (n : NetworkText) : Prop :=
  match n.mask with
  | none => ip = n.address net
  | some (.mask m) => ip &&& net.inetAddr m.word = n.address net &&& net.inetAddr m.word
  | some (.slash k) =>
    ip.toNat / 2 ^ (32 - k.decimal) = (n.address net).toNat / 2 ^ (32 - k.decimal)

/-- The networks that are matched as they are written: no bit of the address lies outside the mask,
and the address is 0 only if every address is meant. -/
def Matchable (n : NetworkText) : Prop :=
  match n.mask with
  | none => n.address net ≠ 0
  | some (.mask m) => n.address net &&& net.inetAddr m.word = n.address net ∧
      (n.address net = 0 → net.inetAddr m.word = 0)
  | some (.slash k) => 2 ^ (32 - k.decimal) ∣ (n.address net).toNat ∧
      (n.address net = 0 → k.decimal = 0)

end NetworkText

/-- The bits above the last `s`. -/
theorem toNat_prefixMask_and {s : ℕ} (hs : s < 32) (ip : UInt32) :
    ((0xffffffff <<< UInt32.ofNat s) &&& ip).toNat = ip.toNat / 2 ^ s * 2 ^ s := by
  have hshift : (UInt32.ofNat s).toNat % 32 = s := by
    rw [UInt32.toNat_ofNat']
    omega
  have hones : (0xffffffff : UInt32).toNat = 2 ^ 32 - 1 := rfl
  rw [UInt32.toNat_and, UInt32.toNat_shiftLeft, hshift, hones, ← Nat.shiftRight_eq_div_pow,
    ← Nat.shiftLeft_eq]
  apply Nat.eq_of_testBit_eq
  intro i
  have hlt : 32 ≤ i → ip.toNat.testBit i = false := fun hi =>
    Nat.testBit_lt_two_pow (lt_of_lt_of_le ip.toNat_lt (Nat.pow_le_pow_right (by decide) hi))
  rw [Nat.testBit_and, Nat.testBit_mod_two_pow, Nat.testBit_shiftLeft, Nat.testBit_two_pow_sub_one,
    Nat.testBit_shiftLeft, Nat.testBit_shiftRight]
  by_cases hi : s ≤ i
  · have hback : s + (i - s) = i := by omega
    rw [hback]
    by_cases hbig : i < 32
    · have hsub : i - s < 32 := by omega
      simp [hi, hbig, hsub]
    · rw [hlt (by omega)]
      simp
  · simp [hi]

/-- Addresses match a mask as they agree with its address on it just if the mask keeps the address,
and the address is 0 for the mask 0 only. -/
theorem matchAddress_mask_iff (a m : UInt32) :
    (∀ ip : UInt32, (a = 0 ∨ a = m &&& ip) ↔ m &&& ip = m &&& a) ↔
      m &&& a = a ∧ (a = 0 → m = 0) := by
  constructor
  · intro h
    constructor
    · rcases (h a).2 rfl with hzero | hkept
      · rw [hzero, UInt32.and_zero]
      · exact hkept.symm
    · intro hzero
      have hm := (h m).1 (Or.inl hzero)
      rw [UInt32.and_self, hzero, UInt32.and_zero] at hm
      exact hm
  · rintro ⟨hkept, hzero⟩ ip
    rw [hkept]
    constructor
    · rintro (ha | ha)
      · rw [ha, hzero ha, UInt32.zero_and]
      · exact ha.symm
    · exact fun h => Or.inr h.symm

/-- A prefix of at least one bit is a mask. -/
theorem matchAddress_prefix_iff (a : UInt32) {s : ℕ} (hs : s < 32) :
    (∀ ip : UInt32, (a = 0 ∨ a = (0xffffffff <<< UInt32.ofNat s) &&& ip) ↔
      ip.toNat / 2 ^ s = a.toNat / 2 ^ s) ↔ 2 ^ s ∣ a.toNat ∧ a ≠ 0 := by
  have hpos : 0 < 2 ^ s := Nat.two_pow_pos s
  have hagree : ∀ ip : UInt32, (0xffffffff <<< UInt32.ofNat s) &&& ip =
      (0xffffffff <<< UInt32.ofNat s) &&& a ↔ ip.toNat / 2 ^ s = a.toNat / 2 ^ s := by
    intro ip
    rw [← UInt32.toNat_inj, toNat_prefixMask_and hs, toNat_prefixMask_and hs]
    exact Nat.mul_left_inj hpos.ne'
  have hkept : (0xffffffff <<< UInt32.ofNat s) &&& a = a ↔ 2 ^ s ∣ a.toNat := by
    rw [← UInt32.toNat_inj, toNat_prefixMask_and hs]
    exact ⟨fun h => Dvd.intro_left _ h, fun h => Nat.div_mul_cancel h⟩
  have hmask : (0xffffffff : UInt32) <<< UInt32.ofNat s ≠ 0 := by
    intro hzero
    have hones := toNat_prefixMask_and hs 0xffffffff
    rw [hzero, UInt32.zero_and, UInt32.toNat_zero] at hones
    have hle : 2 ^ s ≤ 2 ^ 31 := Nat.pow_le_pow_right (by decide) (by omega)
    have hdiv : 0 < (0xffffffff : UInt32).toNat / 2 ^ s :=
      Nat.div_pos (hle.trans (by decide)) hpos
    have := Nat.mul_pos hdiv hpos
    omega
  rw [← forall_congr' fun ip => iff_congr Iff.rfl (hagree ip), matchAddress_mask_iff, hkept]
  exact and_congr_right fun _ => imp_congr_right fun _ => iff_false_intro hmask

/-- A prefix of no bits is all addresses, whatever mask is stored of it. -/
theorem matchAddress_all_iff (a m : UInt32) {k : ℕ} (hk : k = 0) :
    (∀ ip : UInt32, (a = 0 ∨ a = m &&& ip) ↔
      ip.toNat / 2 ^ (32 - k) = a.toNat / 2 ^ (32 - k)) ↔
    2 ^ (32 - k) ∣ a.toNat ∧ (a = 0 → k = 0) := by
  subst hk
  have hagree : ∀ ip : UInt32, ip.toNat / 2 ^ (32 - 0) = 0 :=
    fun ip => Nat.div_eq_of_lt ip.toNat_lt
  simp only [hagree, implies_true, and_true, iff_true]
  constructor
  · intro h
    rcases h 0 with hzero | hzero
    · exact hzero ▸ dvd_zero _
    · rw [UInt32.and_zero] at hzero
      exact hzero ▸ dvd_zero _
  · intro h ip
    have hzero : a.toNat = 0 := Nat.eq_zero_of_dvd_of_lt h a.toNat_lt
    exact Or.inl (UInt32.toNat_inj.1 hzero)

theorem matchAddress_iff (tg : FilterTarget) (ip : UInt32) :
    matchAddress tg ip ↔ tg.ip = 0 ∨ tg.ip = tg.mask &&& ip := by
  rw [matchAddress, decide_eq_true_eq]

/-- **Which networks are matched as they are written.** -/
theorem networkCondition_iff {net : NetDb} {text : List Char} {dir : MatchMode} {r : RuleText}
    {x : FilterRule} (h : Loaded net text dir r x) {side : RuleSide} {o : ObjectText}
    (ho : r.object side = some o) {n : NetworkText} (hn : o.network? = some n)
    (hfits : ∀ k, n.mask = some (.slash k) → k.decimal ≤ 32) :
    (∀ ip, matchAddress (x.target side) ip ↔ n.Contains net ip) ↔ n.Matchable net := by
  obtain ⟨hip, hmask⟩ := ObjectText.store_of_network hn FilterParser.emptyTarget
  rw [← (h.target ho).2] at hip hmask
  have haddress : (x.target side).ip = n.address net := hip
  simp only [matchAddress_iff, haddress, hmask]
  rcases n with ⟨host, _ | m | k⟩
  · have hones : ∀ a : UInt32, 0xffffffff &&& a = a := fun a => UInt32.neg_one_and
    have hall := matchAddress_mask_iff (NetworkText.address net ⟨host, none⟩) 0xffffffff
    simp only [hones, true_and] at hall
    refine Iff.trans ?_ (hall.trans (imp_congr_right fun _ => iff_false_intro (by decide)))
    exact forall_congr' fun ip => iff_congr (or_congr Iff.rfl (by rw [storedMask, hones])) Iff.rfl
  · have hmasked := matchAddress_mask_iff (NetworkText.address net ⟨host, some (.mask m)⟩)
      (net.inetAddr m.word)
    simp only [UInt32.and_comm (net.inetAddr m.word)] at hmasked
    refine Iff.trans ?_ hmasked
    exact forall_congr' fun ip => iff_congr
      (or_congr Iff.rfl (by rw [storedMask, UInt32.and_comm])) Iff.rfl
  · have hk : k.decimal ≤ 32 := hfits k rfl
    rw [storedMask_slash net hk]
    by_cases hzero : k.decimal = 0
    · exact matchAddress_all_iff _ _ (by omega)
    · refine (matchAddress_prefix_iff _ (by omega)).trans (and_congr_right fun _ => ?_)
      exact ⟨fun h ha => absurd ha h, fun h ha => hzero (h ha)⟩

/-- `pass in from` and a network. -/
def passNetwork (n : NetworkText) : RuleText :=
  .passIn none (some (.network n none)) none

/-- `10.0.0.0/8`. -/
def tenNetwork : NetworkText := ⟨⟨"10.0.0.0".toList, by decide +kernel⟩, some (.slash ⟨['8'], rfl⟩)⟩

/-- `10.0.0.1/8`. -/
def tenNetworkHost : NetworkText :=
  ⟨⟨"10.0.0.1".toList, by decide +kernel⟩, some (.slash ⟨['8'], rfl⟩)⟩

theorem loaded_tenNetwork : Loaded .small "pass in from 10.0.0.0/8".toList .inward
    (passNetwork tenNetwork) ((passNetwork tenNetwork).store .small) :=
  ⟨[passNetwork tenNetwork], [(passNetwork tenNetwork).store .small], [], 0, by decide +kernel,
    by decide +kernel, rfl, rfl⟩

theorem networkCondition_iff_ten :
    (∀ ip, matchAddress (((passNetwork tenNetwork).store .small).target .src) ip ↔
      tenNetwork.Contains .small ip) ↔ tenNetwork.Matchable .small := by
  refine networkCondition_iff loaded_tenNetwork rfl rfl fun k hk => ?_
  cases hk
  decide +kernel

/-- A network with a bit of a host is matched by none of its addresses. -/
theorem networkCondition_host :
    Loaded .small "pass in from 10.0.0.1/8".toList .inward (passNetwork tenNetworkHost)
        ((passNetwork tenNetworkHost).store .small) ∧
      tenNetworkHost.Contains .small 0x0a000001 ∧
      matchAddress ((passNetwork tenNetworkHost).store .small).src 0x0a000001 = false :=
  ⟨⟨[passNetwork tenNetworkHost], [(passNetwork tenNetworkHost).store .small], [], 0,
    by decide +kernel, by decide +kernel, rfl, rfl⟩, rfl, by decide +kernel⟩

end Sweetspot
