import Sweetspot.Lib.Octets

/-!
# Edits of octet strings

What a sequence of writes does to a string: which octets it may change, and what it adds to the sum
of a stretch that has them all.

* `Edited`: the two facts together.  A write to a 16-bit or a 32-bit field is an edit, edits of
  regions a word apart are edits of a larger region, and one edit after another adds up
  (`Edited.put16`, `Edited.put32`, `Edited.widen`, `Edited.trans`).
* `AgreeOff`: two strings that differ in one 16-bit field at most, which equal writes keep.
* `EqUpToZero`: words that are equal but for the two zeros, which is what equal sums make them.
-/

namespace Octets

/-- A stretch is its octets. -/
theorem stretch_congr {p p' : List UInt8} {off n : ℕ} (hlength : p'.length = p.length)
    (hp : off + n ≤ p.length) (h : ∀ i, off ≤ i ∧ i < off + n → get8 p' i = get8 p i) :
    stretch p' off n = stretch p off n := by
  induction n generalizing off with
  | zero => simp [stretch]
  | succ n ih =>
    rw [stretch_succ (by omega), stretch_succ (by omega), h off (by omega),
      ih (by omega) fun i hi => h i (by omega)]

/-! ## Edits -/

/-- Nothing before `lo` or from `hi` on has changed, and a stretch that has the whole region, a
number of words from its start, gained `d`. -/
structure Edited (p p' : List UInt8) (lo hi : ℕ) (d : ZMod 65535) : Prop where
  length_eq : p'.length = p.length
  get8_eq : ∀ i, i < lo ∨ hi ≤ i → get8 p' i = get8 p i
  sum_eq : ∀ off n, off ≤ lo → (lo - off) % 2 = 0 → hi ≤ off + n → off + n ≤ p.length →
    stretchSum p' off n = stretchSum p off n + d

namespace Edited

variable {p p' p'' : List UInt8} {lo hi i off n : ℕ} {d e : ZMod 65535}

theorem refl (p : List UInt8) (lo hi : ℕ) : Edited p p lo hi 0 :=
  ⟨rfl, fun _ _ => rfl, fun _ _ _ _ _ _ => (add_zero _).symm⟩

theorem put16 (h : i + 2 ≤ p.length) (v : UInt16) :
    Edited p (put16 p i v) i (i + 2) (v.toNat - (get16 p i).toNat) :=
  ⟨length_put16 p i v, fun _ hj => get8_put16_of_ne h v hj,
    fun _ _ hoff heven hn _ => stretchSum_put16 hoff heven hn h v⟩

theorem put32 (h : i + 4 ≤ p.length) (v : UInt32) :
    Edited p (put32 p i v) i (i + 4) (v.toNat - (get32 p i).toNat) :=
  ⟨length_put32 p i v, fun _ hj => get8_put32_of_ne h v hj,
    fun _ _ hoff heven hn _ => stretchSum_put32 hoff heven hn h v⟩

/-- An edit of a region is one of a larger region, a number of words longer in front. -/
theorem widen (h : Edited p p' lo hi d) {lo' hi' : ℕ} (hlo : lo' ≤ lo) (heven : (lo - lo') % 2 = 0)
    (hhi : hi ≤ hi') : Edited p p' lo' hi' d :=
  ⟨h.length_eq, fun i hi => h.get8_eq i (by omega),
    fun off n hoff hoffEven hn hp => h.sum_eq off n (by omega) (by omega) (by omega) hp⟩

/-- One edit after another. -/
theorem trans (h : Edited p p' lo hi d) (h' : Edited p' p'' lo hi e) :
    Edited p p'' lo hi (d + e) := by
  refine ⟨h'.length_eq.trans h.length_eq, fun i hi => ?_, fun off n hoff heven hn hp => ?_⟩
  · rw [h'.get8_eq i hi, h.get8_eq i hi]
  · rw [h'.sum_eq off n hoff heven hn (by rw [h.length_eq]; exact hp),
      h.sum_eq off n hoff heven hn hp, add_assoc]

theorem of_eq (h : Edited p p' lo hi d) (hd : d = e) : Edited p p' lo hi e := hd ▸ h

/-- A stretch beside the region is what it was. -/
theorem stretch_eq (h : Edited p p' lo hi d) (hp : off + n ≤ p.length)
    (hdisjoint : off + n ≤ lo ∨ hi ≤ off) : stretch p' off n = stretch p off n :=
  stretch_congr h.length_eq hp fun i hi => h.get8_eq i (by omega)

theorem get16_eq (h : Edited p p' lo hi d) (hdisjoint : i + 2 ≤ lo ∨ hi ≤ i) :
    get16 p' i = get16 p i := by
  rw [get16, get16, h.get8_eq i (by omega), h.get8_eq (i + 1) (by omega)]

theorem get32_eq (h : Edited p p' lo hi d) (hdisjoint : i + 4 ≤ lo ∨ hi ≤ i) :
    get32 p' i = get32 p i := by
  rw [get32, get32, h.get16_eq (by omega), h.get16_eq (by omega)]

end Edited

/-! ## Strings that differ in one field -/

/-- Nothing but the 16-bit field at `c` differs. -/
structure AgreeOff (p p' : List UInt8) (c : ℕ) : Prop where
  length_eq : p'.length = p.length
  get8_eq : ∀ i, i < c ∨ c + 2 ≤ i → get8 p' i = get8 p i

namespace AgreeOff

variable {p p' : List UInt8} {c i off n : ℕ}

/-- The field itself written in two ways. -/
theorem of_put16 (hc : c + 2 ≤ p.length) (v w : UInt16) :
    AgreeOff (put16 p c v) (put16 p c w) c := by
  refine ⟨by rw [length_put16, length_put16], fun i hi => ?_⟩
  rw [get8_put16_of_ne hc w hi, get8_put16_of_ne hc v hi]

theorem put16 (h : AgreeOff p p' c) (hi : i + 2 ≤ p.length) (v : UInt16) :
    AgreeOff (put16 p i v) (Octets.put16 p' i v) c := by
  have hi' : i + 2 ≤ p'.length := by
    rw [h.length_eq]
    exact hi
  refine ⟨by rw [length_put16, length_put16, h.length_eq], fun j hj => ?_⟩
  rw [get8_put16 hi', get8_put16 hi, h.get8_eq j hj]

theorem put32 (h : AgreeOff p p' c) (hi : i + 4 ≤ p.length) (v : UInt32) :
    AgreeOff (put32 p i v) (Octets.put32 p' i v) c :=
  (h.put16 (by omega) _).put16 (by rw [length_put16]; omega) _

/-- A stretch beside the field is the same. -/
theorem stretch_eq (h : AgreeOff p p' c) (hp : off + n ≤ p.length)
    (hc : off + n ≤ c ∨ c + 2 ≤ off) : stretch p' off n = stretch p off n :=
  stretch_congr h.length_eq hp fun i hi => h.get8_eq i (by omega)

end AgreeOff

/-- The second of two writes to a field is the one that counts. -/
theorem put16_put16_self (p : List UInt8) (i : ℕ) (v w : UInt16) :
    put16 (put16 p i v) i w = put16 p i w := by
  simp only [put16]
  rw [List.set_comm (i := i + 1) (j := i) _ _ (by omega), List.set_set, List.set_set]

/-- The same word, or each of the two one of the zeros of one's-complement arithmetic. -/
def EqUpToZero (v w : UInt16) : Prop := v = w ∨ (v = 0 ∨ v = 0xffff) ∧ (w = 0 ∨ w = 0xffff)

theorem eqUpToZero_of_cast_eq {v w : UInt16} (h : (v.toNat : ZMod 65535) = w.toNat) :
    EqUpToZero v w := by
  have hv := v.toNat_lt
  have hw := w.toNat_lt
  have hmod : v.toNat % 65535 = w.toNat % 65535 := (ZMod.natCast_eq_natCast_iff _ _ _).mp h
  by_cases hvw : v.toNat = w.toNat
  · exact Or.inl (UInt16.toNat_inj.mp hvw)
  · -- two residues of 16-bit words agree only at the ends
    have hends : (v.toNat = 0 ∨ v.toNat = 65535) ∧ (w.toNat = 0 ∨ w.toNat = 65535) := by omega
    exact Or.inr ⟨hends.1.imp (fun h => UInt16.toNat_inj.mp h) (fun h => UInt16.toNat_inj.mp h),
      hends.2.imp (fun h => UInt16.toNat_inj.mp h) (fun h => UInt16.toNat_inj.mp h)⟩

end Octets
