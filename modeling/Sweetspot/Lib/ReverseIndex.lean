import Mathlib.Logic.Function.Basic
import Mathlib.Tactic.Common

/-!
# Reverse indices

Members come and go.  Each of them has a home, and an index remembers for every home who was last
entered there; whoever leaves clears the place.

* `put`, `drop`: a member is entered, or leaves.
* `ExactAt`: the index names exactly the members at home in a place.  Entering a member keeps
  that exactly if nobody else is at home there already (`exactAt_put`).
* `Complete`: the index names every member.
-/

/-- Who is a member, and who is remembered for a home. -/
@[ext] structure ReverseIndex (α κ : Type*) where
  present : α → Prop
  owner : κ → Option α

namespace ReverseIndex

variable {α κ : Type*} [DecidableEq κ] (home : α → κ)

/-- A member is entered, also in place of another one. -/
def put (R : ReverseIndex α κ) (a : α) : ReverseIndex α κ where
  present b := b = a ∨ R.present b
  owner := Function.update R.owner (home a) (some a)

/-- A member leaves, and its home is cleared; to who is none, nothing happens. -/
noncomputable def drop (R : ReverseIndex α κ) (a : α) : ReverseIndex α κ where
  present b := b ≠ a ∧ R.present b
  owner := by
    classical
    exact if R.present a then Function.update R.owner (home a) none else R.owner

/-- The index names exactly the members at home in `k`. -/
def ExactAt (k : κ) (R : ReverseIndex α κ) : Prop :=
  ∀ a, R.owner k = some a ↔ R.present a ∧ home a = k

/-- Every member is found at its home. -/
def Complete (R : ReverseIndex α κ) : Prop := ∀ a, R.present a → R.owner (home a) = some a

variable {home} {R : ReverseIndex α κ} {a b : α} {k : κ}

@[simp] theorem present_put : (R.put home a).present b ↔ b = a ∨ R.present b := Iff.rfl

@[simp] theorem present_drop : (R.drop home a).present b ↔ b ≠ a ∧ R.present b := Iff.rfl

theorem owner_put : (R.put home a).owner k = if k = home a then some a else R.owner k :=
  Function.update_apply _ _ _ _

theorem owner_drop_of_present (h : R.present a) :
    (R.drop home a).owner k = if k = home a then none else R.owner k := by
  rw [drop, if_pos h]
  exact Function.update_apply _ _ _ _

theorem drop_of_not_present (h : ¬ R.present a) : R.drop home a = R := by
  ext b
  · exact and_iff_right_of_imp fun hb hba => h (hba ▸ hb)
  · rw [drop, if_neg h]

/-! ## Exactness -/

/-- **Entering a member keeps the index exact exactly if it finds its home empty**, or does not
live there. -/
theorem exactAt_put (h : R.ExactAt home k) : (R.put home a).ExactAt home k ↔
    (home a = k → ∀ b, R.present b → home b = k → b = a) := by
  constructor
  · intro hput hhome b hb hbk
    have howner := (hput b).2 ⟨Or.inr hb, hbk⟩
    rw [owner_put, if_pos hhome.symm] at howner
    exact (Option.some.inj howner).symm
  · intro halone b
    rw [owner_put]
    by_cases hk : k = home a
    · rw [if_pos hk]
      constructor
      · intro hb
        obtain rfl := Option.some.inj hb
        exact ⟨Or.inl rfl, hk.symm⟩
      · rintro ⟨rfl | hb, hbk⟩
        · rfl
        · rw [halone hk.symm b hb hbk]
    · rw [if_neg hk, h b]
      constructor
      · exact fun hb => ⟨Or.inr hb.1, hb.2⟩
      · rintro ⟨rfl | hb, hbk⟩
        · exact absurd hbk.symm hk
        · exact ⟨hb, hbk⟩

/-- A member leaves a place where the index is exact with nobody else in it. -/
theorem exactAt_drop (h : R.ExactAt home k) : (R.drop home a).ExactAt home k := by
  by_cases ha : R.present a
  · intro b
    rw [owner_drop_of_present ha]
    by_cases hk : k = home a
    · rw [if_pos hk]
      refine iff_of_false (by simp) ?_
      rintro ⟨⟨hne, hb⟩, hbk⟩
      have howner := (h a).2 ⟨ha, hk.symm⟩
      rw [(h b).2 ⟨hb, hbk⟩] at howner
      exact hne (Option.some.inj howner)
    · rw [if_neg hk, h b]
      refine and_congr_left fun hbk => (and_iff_right ?_).symm
      rintro rfl
      exact hk hbk.symm
  · rwa [drop_of_not_present ha]

omit [DecidableEq κ] in
theorem complete_of_exactAt (h : ∀ k, R.ExactAt home k) : R.Complete home :=
  fun a ha => (h (home a) a).2 ⟨ha, rfl⟩

/-- If everybody is still found after a member was entered, nobody else lives there. -/
theorem alone_of_complete_put (h : (R.put home a).Complete home) (hb : R.present b)
    (hhome : home b = home a) : b = a := by
  have howner := h b (Or.inr hb)
  rw [owner_put, if_pos hhome] at howner
  exact (Option.some.inj howner).symm

/-- Nobody is remembered for a place that nobody has been entered in. -/
theorem owner_put_eq_none (h : R.owner k = none) :
    (R.put home a).owner k = none ↔ home a ≠ k := by
  rw [owner_put]
  by_cases hk : k = home a
  · simp [hk]
  · simp [hk, h, Ne.symm hk]

theorem owner_drop_eq_none (h : R.owner k = none) : (R.drop home a).owner k = none := by
  by_cases ha : R.present a
  · rw [owner_drop_of_present ha]
    split
    · rfl
    · exact h
  · rwa [drop_of_not_present ha]

end ReverseIndex
