import Sweetspot.Lib.AttributeText
import Sweetspot.Session.Acct

/-!
# The totals in the detail file

The detail file gets the gauge scope of a record as lines of text.  A counter of octets is written
as its low word and, on a line of its own that may be left out, its high word.  Whoever reads the
lines puts the counter together again.

* `gaugeAttributes`, `commitGauge`: the attributes of a gauge scope and their text.
* `readTotals_commitGauge`: what a reader finds in the text is what `detailGauge` says.
* `OctetsSurvive`: the counters that are read are those that were written.
* `octetsSurvive_iff`: they are, unless a counter is a multiple of `2 ^ 32` other than zero.  The
  test for leaving the high word out looks at the low one.
-/

namespace Sweetspot

open AttributeText

/-- The attributes that `__commit` of the gauge scope writes. -/
inductive DetailName where
  | acctDelayTime | acctInputOctets | acctOutputOctets | acctInputGigawords | acctOutputGigawords
  | acctInputPackets | acctOutputPackets | bandwidthMaxUp | bandwidthMaxDown | acctSessionTime
  | sweetMaxOctetsIn | sweetMaxOctetsOut | sweetMaxBpsUp | sweetMaxBpsDown | sweetMaxDuration
  | sweetMaxIdle
  deriving DecidableEq, Repr

namespace DetailName

def all : List DetailName :=
  [acctDelayTime, acctInputOctets, acctOutputOctets, acctInputGigawords, acctOutputGigawords,
    acctInputPackets, acctOutputPackets, bandwidthMaxUp, bandwidthMaxDown, acctSessionTime,
    sweetMaxOctetsIn, sweetMaxOctetsOut, sweetMaxBpsUp, sweetMaxBpsDown, sweetMaxDuration,
    sweetMaxIdle]

theorem mem_all (name : DetailName) : name ∈ all := by cases name <;> decide

/-- The names as they are written. -/
def text : DetailName → String
  | acctDelayTime => "Acct-Delay-Time"
  | acctInputOctets => "Acct-Input-Octets"
  | acctOutputOctets => "Acct-Output-Octets"
  | acctInputGigawords => "Acct-Input-Gigawords"
  | acctOutputGigawords => "Acct-Output-Gigawords"
  | acctInputPackets => "Acct-Input-Packets"
  | acctOutputPackets => "Acct-Output-Packets"
  | bandwidthMaxUp => "Bandwidth-Max-Up"
  | bandwidthMaxDown => "Bandwidth-Max-Down"
  | acctSessionTime => "Acct-Session-Time"
  | sweetMaxOctetsIn => "Sweet-Max-Octets-In"
  | sweetMaxOctetsOut => "Sweet-Max-Octets-Out"
  | sweetMaxBpsUp => "Sweet-Max-Bps-Up"
  | sweetMaxBpsDown => "Sweet-Max-Bps-Down"
  | sweetMaxDuration => "Sweet-Max-Duration"
  | sweetMaxIdle => "Sweet-Max-Idle"

theorem text_injective {name name' : DetailName} (h : name.text.toList = name'.text.toList) :
    name = name' := by
  have hall : ∀ a ∈ all, ∀ b ∈ all, a.text.toList = b.text.toList → a = b := by decide +kernel
  exact hall name name.mem_all name' name'.mem_all h

theorem text_plain (name : DetailName) : ' ' ∉ name.text.toList ∧ '\n' ∉ name.text.toList := by
  cases name <;> decide +kernel

end DetailName

/-- The names with what the reader of the file relies on. -/
def detailDictionary : Dictionary DetailName where
  text name := name.text.toList
  injective _ _ h := DetailName.text_injective h
  plain := DetailName.text_plain

/-- `SW_GAUGE_MAX_OCTETS_IN`, `SW_GAUGE_MAX_OCTETS_OUT`, `SW_GAUGE_MAX_BPS_IN` and
`SW_GAUGE_MAX_BPS_OUT`, all of the same value. -/
def SW_GAUGE_MAX : UInt64 := 0xfffffffffff70000

/-- A time as `%lu` prints it. -/
def printedTime (t : ℤ) : ℕ := (t % 2 ^ 64).toNat

/-- A limit is written unless it is the one that stands for none. -/
def limitAttribute (name : DetailName) (limit : UInt64) : List (Attribute DetailName) :=
  if limit ≠ SW_GAUGE_MAX then [.quoted name limit.toNat] else []

/-- The lines of `__commit` of the gauge scope about what was counted. -/
def countedAttributes (prv : GaugeScope) : List (Attribute DetailName) :=
  [.number .acctInputOctets prv.totals.octetsIn.toUInt32.toNat,
    .number .acctOutputOctets prv.totals.octetsOut.toUInt32.toNat] ++
  (if prv.totals.octetsIn &&& 0xffffffff ≠ 0 then
    [.number .acctInputGigawords (prv.totals.octetsIn >>> 32).toUInt32.toNat] else []) ++
  (if prv.totals.octetsOut &&& 0xffffffff ≠ 0 then
    [.number .acctOutputGigawords (prv.totals.octetsOut >>> 32).toUInt32.toNat] else []) ++
  [.number .acctInputPackets (0xffffffff &&& prv.totals.packetsIn).toNat,
    .number .acctOutputPackets (0xffffffff &&& prv.totals.packetsOut).toNat,
    .number .bandwidthMaxUp prv.bpsIn.toNat,
    .number .bandwidthMaxDown prv.bpsOut.toNat,
    .number .acctSessionTime (printedTime (prv.duration - prv.idle))]

/-- The lines of `__commit` of the gauge scope, in order. -/
def gaugeAttributes (prv : GaugeScope) (delay : ℤ) : List (Attribute DetailName) :=
  [.number .acctDelayTime (printedTime delay)] ++
  (if prv.type = .interim ∨ prv.type = .stop ∨ prv.type = .stopTime then countedAttributes prv
    else []) ++
  limitAttribute .sweetMaxOctetsIn prv.maxOctetsIn ++
  limitAttribute .sweetMaxOctetsOut prv.maxOctetsOut ++
  limitAttribute .sweetMaxBpsUp prv.maxBpsIn ++
  limitAttribute .sweetMaxBpsDown prv.maxBpsOut ++
  [.number .sweetMaxDuration (printedTime prv.maxDuration),
    .number .sweetMaxIdle (printedTime prv.maxIdle)]

/-- `__commit` of the gauge scope: what it appends to the buffer. -/
def commitGauge (prv : GaugeScope) (delay : ℤ) : List Char :=
  render detailDictionary (gaugeAttributes prv delay)

/-! ## Reading -/

/-- The word that the text gives a name. -/
def findWord (text : List Char) (name : DetailName) : Option UInt32 :=
  (findNat detailDictionary text name).bind fun n =>
    if n < 2 ^ 32 then some (UInt32.ofNat n) else none

/-- The totals that the text shows. -/
def readTotals (text : List Char) : Option DetailTotals := do
  let acctInputOctets ← findWord text .acctInputOctets
  let acctOutputOctets ← findWord text .acctOutputOctets
  let acctInputPackets ← findWord text .acctInputPackets
  let acctOutputPackets ← findWord text .acctOutputPackets
  return {
    acctInputOctets, acctOutputOctets, acctInputPackets, acctOutputPackets
    acctInputGigawords := findWord text .acctInputGigawords
    acctOutputGigawords := findWord text .acctOutputGigawords }

section Reading

variable (prv : GaugeScope) (delay : ℤ)

/-- The attributes that `readTotals` looks for. -/
def DetailName.ofTotals : List DetailName :=
  [acctInputOctets, acctOutputOctets, acctInputGigawords, acctOutputGigawords, acctInputPackets,
    acctOutputPackets]

theorem find_limitAttribute {name name' : DetailName} (h : name' ≠ name) (limit : UInt64) :
    (limitAttribute name' limit).find? (fun a => a.name = name) = none := by
  rw [limitAttribute]
  split
  · simp [h]
  · rfl

/-- The totals are among the lines about what was counted, if anywhere. -/
theorem find_gaugeAttributes {name : DetailName} (hname : name ∈ DetailName.ofTotals) :
    (gaugeAttributes prv delay).find? (fun a => a.name = name) =
      if prv.type = .interim ∨ prv.type = .stop ∨ prv.type = .stopTime then
        (countedAttributes prv).find? fun a => a.name = name
      else none := by
  have hne : ∀ name' ∈ DetailName.ofTotals, .acctDelayTime ≠ name' ∧ .sweetMaxOctetsIn ≠ name' ∧
      .sweetMaxOctetsOut ≠ name' ∧ .sweetMaxBpsUp ≠ name' ∧ .sweetMaxBpsDown ≠ name' ∧
      .sweetMaxDuration ≠ name' ∧ .sweetMaxIdle ≠ name' := by decide
  obtain ⟨h1, h2, h3, h4, h5, h6, h7⟩ := hne name hname
  rw [gaugeAttributes]
  simp only [List.find?_append, find_limitAttribute h2, find_limitAttribute h3,
    find_limitAttribute h4, find_limitAttribute h5]
  split <;> simp [h1, h6, h7]

/-- The word that the text gives one of the totals. -/
theorem findWord_commitGauge {name : DetailName} (hname : name ∈ DetailName.ofTotals) :
    findWord (commitGauge prv delay) name =
      if prv.type = .interim ∨ prv.type = .stop ∨ prv.type = .stopTime then
        ((countedAttributes prv).find? fun a => a.name = name).bind fun a =>
          (readNat a.value).bind fun n => if n < 2 ^ 32 then some (UInt32.ofNat n) else none
      else none := by
  rw [findWord, findNat, commitGauge, find_render, find_gaugeAttributes prv delay hname]
  split
  · cases (countedAttributes prv).find? fun a => a.name = name <;> rfl
  · rfl

end Reading

/-- A word that was written in decimal is read back. -/
theorem readNat_word (name : DetailName) (n : UInt32) :
    ((readNat (Attribute.number name n.toNat).value).bind fun n =>
      if n < 2 ^ 32 then some (UInt32.ofNat n) else none) = some n := by
  rw [readNat_number_value, Option.bind_some, if_pos n.toNat_lt, UInt32.ofNat_toNat]

theorem and_mask (n : UInt64) : (0xffffffff &&& n).toNat = n.toUInt32.toNat := by
  have hmask : (0xffffffff : UInt64).toNat = 2 ^ 32 - 1 := rfl
  rw [UInt64.toNat_and, hmask, Nat.and_comm, Nat.and_two_pow_sub_one_eq_mod,
    UInt64.toNat_toUInt32]

theorem and_mask_eq_zero_iff (n : UInt64) : n &&& 0xffffffff = 0 ↔ n.toUInt32 = 0 := by
  rw [UInt64.and_comm, ← UInt64.toNat_inj, and_mask, ← UInt32.toNat_inj]
  rfl

section Counted

variable (prv : GaugeScope)

theorem find_counted_octets :
    (countedAttributes prv).find? (fun a => a.name = .acctInputOctets) =
        some (.number .acctInputOctets prv.totals.octetsIn.toUInt32.toNat) ∧
      (countedAttributes prv).find? (fun a => a.name = .acctOutputOctets) =
        some (.number .acctOutputOctets prv.totals.octetsOut.toUInt32.toNat) := by
  constructor <;> simp [countedAttributes]

theorem find_counted_gigawords :
    (countedAttributes prv).find? (fun a => a.name = .acctInputGigawords) =
        (detailGigawords prv.totals.octetsIn).map
          (fun n => .number .acctInputGigawords n.toNat) ∧
      (countedAttributes prv).find? (fun a => a.name = .acctOutputGigawords) =
        (detailGigawords prv.totals.octetsOut).map
          (fun n => .number .acctOutputGigawords n.toNat) := by
  by_cases hin : prv.totals.octetsIn.toUInt32 = 0 <;>
    by_cases hout : prv.totals.octetsOut.toUInt32 = 0 <;>
      simp [countedAttributes, detailGigawords, and_mask_eq_zero_iff, hin, hout]

theorem find_counted_packets :
    (countedAttributes prv).find? (fun a => a.name = .acctInputPackets) =
        some (.number .acctInputPackets prv.totals.packetsIn.toUInt32.toNat) ∧
      (countedAttributes prv).find? (fun a => a.name = .acctOutputPackets) =
        some (.number .acctOutputPackets prv.totals.packetsOut.toUInt32.toNat) := by
  rw [← and_mask, ← and_mask]
  by_cases hin : prv.totals.octetsIn &&& 0xffffffff = 0 <;>
    by_cases hout : prv.totals.octetsOut &&& 0xffffffff = 0 <;>
      simp [countedAttributes, hin, hout]

end Counted

/-- **What a reader finds** in the text are the totals of the attributes. -/
theorem readTotals_commitGauge (prv : GaugeScope) (delay : ℤ) :
    readTotals (commitGauge prv delay) = detailGauge prv := by
  have hword := fun name (hname : name ∈ DetailName.ofTotals) =>
    findWord_commitGauge prv delay hname
  obtain ⟨hoctetsIn, hoctetsOut⟩ := find_counted_octets prv
  obtain ⟨hgigaIn, hgigaOut⟩ := find_counted_gigawords prv
  obtain ⟨hpacketsIn, hpacketsOut⟩ := find_counted_packets prv
  have hgiga : ∀ (name : DetailName) (high : Option UInt32),
      ((high.map fun n => Attribute.number name n.toNat).bind fun a =>
        (readNat a.value).bind fun n => if n < 2 ^ 32 then some (UInt32.ofNat n) else none) =
          high := by
    intro name high
    cases high with
    | none => rfl
    | some n => exact readNat_word name n
  rw [readTotals, hword _ (by decide), hword _ (by decide), hword _ (by decide),
    hword _ (by decide), hword _ (by decide), hword _ (by decide), detailGauge, hoctetsIn,
    hoctetsOut, hpacketsIn, hpacketsOut, hgigaIn, hgigaOut]
  split
  · rw [Option.bind_some, Option.bind_some, Option.bind_some, Option.bind_some, readNat_word,
      readNat_word, readNat_word, readNat_word, hgiga, hgiga]
    rfl
  · rfl

/-! ## The counters put together -/

/-- The counter of which a text shows the two words. -/
def counterOf (octets : UInt32) (gigawords : Option UInt32) : ℕ :=
  octets.toNat + 2 ^ 32 * (gigawords.getD 0).toNat

/-- The counters that a reader of the text finds are those of the record. -/
def OctetsSurvive (prv : GaugeScope) (text : List Char) : Prop :=
  ∃ d, readTotals text = some d ∧
    counterOf d.acctInputOctets d.acctInputGigawords = prv.totals.octetsIn.toNat ∧
    counterOf d.acctOutputOctets d.acctOutputGigawords = prv.totals.octetsOut.toNat

/-- One counter: its high word is left out just if its low word is zero. -/
theorem counterOf_detailGigawords (octets : UInt64) :
    counterOf octets.toUInt32 (detailGigawords octets) = octets.toNat ↔
      (2 ^ 32 ∣ octets.toNat → octets = 0) := by
  have hlow : octets.toUInt32.toNat = octets.toNat % 2 ^ 32 := UInt64.toNat_toUInt32 octets
  have hbound := octets.toNat_lt
  rw [counterOf, detailGigawords, Nat.dvd_iff_mod_eq_zero, ← UInt64.toNat_inj, UInt64.toNat_zero]
  by_cases h : octets.toUInt32 = 0
  · rw [if_neg (not_not.2 h), Option.getD_none, h]
    rw [h, UInt32.toNat_zero] at hlow
    simp only [UInt32.toNat_zero]
    omega
  · have hhigh : (octets >>> 32).toUInt32.toNat = octets.toNat / 2 ^ 32 := by
      rw [UInt64.toNat_toUInt32, UInt64.toNat_shiftRight]
      show octets.toNat >>> 32 % 2 ^ 32 = _
      rw [Nat.shiftRight_eq_div_pow]
      omega
    have hne : octets.toNat % 2 ^ 32 ≠ 0 := by
      rwa [← hlow, ne_eq, ← UInt32.toNat_zero, UInt32.toNat_inj]
    rw [if_pos h, Option.getD_some, hlow, hhigh]
    omega

/-- **64-bit counters survive the encoding** exactly if neither of them is a multiple of `2 ^ 32`
other than zero. -/
theorem octetsSurvive_iff {prv : GaugeScope}
    (htype : prv.type = .interim ∨ prv.type = .stop ∨ prv.type = .stopTime) (delay : ℤ) :
    OctetsSurvive prv (commitGauge prv delay) ↔
      (2 ^ 32 ∣ prv.totals.octetsIn.toNat → prv.totals.octetsIn = 0) ∧
        (2 ^ 32 ∣ prv.totals.octetsOut.toNat → prv.totals.octetsOut = 0) := by
  rw [OctetsSurvive, readTotals_commitGauge, detailGauge, if_pos htype,
    ← counterOf_detailGigawords, ← counterOf_detailGigawords]
  constructor
  · rintro ⟨d, hd, hin, hout⟩
    cases hd
    exact ⟨hin, hout⟩
  · rintro ⟨hin, hout⟩
    exact ⟨_, rfl, hin, hout⟩

/-- The gauge scope of a stop record after so many octets. -/
def stopScope (octetsIn octetsOut : UInt64) : GaugeScope :=
  Controller.gaugeScope 600
    { ip := 0x0A000001
      maxOctetsIn := SW_GAUGE_MAX
      maxOctetsOut := SW_GAUGE_MAX
      maxBpsIn := SW_GAUGE_MAX
      maxBpsOut := SW_GAUGE_MAX
      maxDuration := 3600
      maxIdle := 600
      octetsIn
      octetsOut
      bpsIn := 0
      bpsOut := 0
      packetsIn := 4000000
      packetsOut := 2000000
      peakBpsIn := 0
      peakBpsOut := 0
      deathday := 3600
      idle := 600
      bpsProbeIn := 0
      bpsProbeOut := 0
      bpsProbeTime := 0 } .stop

theorem octetsSurvive_iff_stop :
    OctetsSurvive (stopScope 5000000000 1000) (commitGauge (stopScope 5000000000 1000) 0) ↔
      (2 ^ 32 ∣ (5000000000 : UInt64).toNat → (5000000000 : UInt64) = 0) ∧
        (2 ^ 32 ∣ (1000 : UInt64).toNat → (1000 : UInt64) = 0) :=
  octetsSurvive_iff (Or.inr (Or.inl rfl)) 0

/-- After exactly 4 GiB the record shows no octets at all. -/
theorem octetsSurvive_fourGigabytes :
    ¬ ∀ prv delay, prv.type = .interim ∨ prv.type = .stop ∨ prv.type = .stopTime →
      OctetsSurvive prv (commitGauge prv delay) := by
  intro h
  obtain ⟨d, hd, hin, -⟩ := h (stopScope (2 ^ 32) 1000) 0 (Or.inr (Or.inl rfl))
  rw [readTotals_commitGauge] at hd
  cases hd
  exact absurd hin (by decide)

end Sweetspot
