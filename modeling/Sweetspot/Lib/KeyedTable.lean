import Mathlib.Data.Int.Basic
import Mathlib.Data.List.Pairwise
import Mathlib.Tactic.Common

/-!
# Keyed tables with a comparison callback

A hash table of the C kind: it stores records, not key/value pairs, and it is created with a
comparison callback that says when two records carry the same key.  What the table promises is
that no two stored records compare equal, and `KeyedTable` keeps that promise as a field.

* `Comparator`: a comparison whose zero set is an equivalence.
* `retrieve`, `insert`, `delete`, `map`: look up by key, insert *replacing* a record of an equal
  key, delete by key, and rewrite the stored records in place without touching their keys.
* `mem_insert`, `mem_delete`, `mem_map`: what each operation leaves in the table.
* `retrieve_eq_some_iff`: a lookup finds exactly the stored record of an equal key.
* `Agree`: two tables that index the same records by different keys, and the updates that keep
  them in step.
-/

/-- A comparison callback: `comp a b = 0` says that `a` and `b` are the same key, and that is an
equivalence. -/
structure Comparator (κ : Type*) where
  comp : κ → κ → ℤ
  comp_self : ∀ a, comp a a = 0
  comp_symm : ∀ {a b}, comp a b = 0 → comp b a = 0
  comp_trans : ∀ {a b c}, comp a b = 0 → comp b c = 0 → comp a c = 0

namespace Comparator

variable {κ ν : Type*}

/-- A comparison that vanishes exactly on equal images under `f` is a comparator. -/
def ofImage (comp : κ → κ → ℤ) (f : κ → ν) (h : ∀ a b, comp a b = 0 ↔ f a = f b) :
    Comparator κ where
  comp := comp
  comp_self a := (h a a).2 rfl
  comp_symm hab := (h _ _).2 ((h _ _).1 hab).symm
  comp_trans hab hbc := (h _ _).2 (((h _ _).1 hab).trans ((h _ _).1 hbc))

theorem ite_ne_eq_zero_iff [DecidableEq ν] (a b : ν) :
    (if a ≠ b then (1 : ℤ) else 0) = 0 ↔ a = b := by
  by_cases h : a = b <;> simp [h]

section Hashed

variable {η : Type*} [DecidableEq η]

/-- The comparison of a table that looks at the hashes first. -/
def hashedComp (comp : κ → κ → ℤ) (hash : κ → η) (a b : κ) : ℤ :=
  if hash a ≠ hash b then 1 else comp a b

theorem hashedComp_eq_zero_iff {comp : κ → κ → ℤ} {hash : κ → η} {a b : κ} :
    hashedComp comp hash a b = 0 ↔ hash a = hash b ∧ comp a b = 0 := by
  by_cases hab : hash a = hash b <;> simp [hashedComp, hab]

/-- Keys of one hash that are the same key. -/
def hashed (C : Comparator κ) (hash : κ → η) : Comparator κ where
  comp := hashedComp C.comp hash
  comp_self a := hashedComp_eq_zero_iff.2 ⟨rfl, C.comp_self a⟩
  comp_symm h := hashedComp_eq_zero_iff.2
    ⟨(hashedComp_eq_zero_iff.1 h).1.symm, C.comp_symm (hashedComp_eq_zero_iff.1 h).2⟩
  comp_trans h h' := hashedComp_eq_zero_iff.2
    ⟨(hashedComp_eq_zero_iff.1 h).1.trans (hashedComp_eq_zero_iff.1 h').1,
      C.comp_trans (hashedComp_eq_zero_iff.1 h).2 (hashedComp_eq_zero_iff.1 h').2⟩

theorem hashed_eq_zero_iff (C : Comparator κ) {hash : κ → η} {a b : κ} :
    (C.hashed hash).comp a b = 0 ↔ hash a = hash b ∧ C.comp a b = 0 := hashedComp_eq_zero_iff

end Hashed

end Comparator

/-- A table of records `ρ`, at most one for each key. -/
structure KeyedTable {κ ρ : Type*} (C : Comparator κ) (key : ρ → κ) where
  items : List ρ
  distinct : items.Pairwise fun a b => C.comp (key a) (key b) ≠ 0

namespace KeyedTable

variable {κ ρ : Type*} {C : Comparator κ} {key : ρ → κ}

instance : Membership ρ (KeyedTable C key) := ⟨fun t r => r ∈ t.items⟩

theorem mem_def {t : KeyedTable C key} {r : ρ} : r ∈ t ↔ r ∈ t.items := Iff.rfl

@[ext] theorem ext {t u : KeyedTable C key} (h : t.items = u.items) : t = u := by
  cases t
  cases u
  cases h
  rfl

/-! ## The operations -/

/-- The table with no record. -/
def empty : KeyedTable C key := ⟨[], List.Pairwise.nil⟩

instance : EmptyCollection (KeyedTable C key) := ⟨empty⟩

/-- The record stored under key `k`. -/
def retrieve (t : KeyedTable C key) (k : κ) : Option ρ :=
  t.items.find? fun r => C.comp (key r) k = 0

/-- Drop the record stored under key `k`. -/
def delete (t : KeyedTable C key) (k : κ) : KeyedTable C key where
  items := t.items.filter fun r => C.comp (key r) k ≠ 0
  distinct := t.distinct.filter _

/-- Store `r`, replacing the record of an equal key. -/
def insert (t : KeyedTable C key) (r : ρ) : KeyedTable C key where
  items := r :: (t.delete (key r)).items
  distinct := by
    refine List.pairwise_cons.2 ⟨?_, (t.delete (key r)).distinct⟩
    intro x hx
    have hne : C.comp (key x) (key r) ≠ 0 := by
      simpa using (List.mem_filter.1 hx).2
    intro h
    exact hne (C.comp_symm h)

/-- Rewrite every stored record in place by an `f` that leaves the keys alone. -/
def map (t : KeyedTable C key) (f : ρ → ρ) (hf : ∀ r, key (f r) = key r) :
    KeyedTable C key where
  items := t.items.map f
  distinct := by
    refine List.pairwise_map.2 (t.distinct.imp ?_)
    intro a b hab
    rwa [hf, hf]

/-! ## What each operation leaves in the table -/

@[simp] theorem not_mem_empty (r : ρ) : r ∉ (∅ : KeyedTable C key) := List.not_mem_nil

@[simp] theorem mem_delete {t : KeyedTable C key} {k : κ} {x : ρ} :
    x ∈ t.delete k ↔ x ∈ t ∧ C.comp (key x) k ≠ 0 := by
  simp [mem_def, delete]

@[simp] theorem mem_insert {t : KeyedTable C key} {r x : ρ} :
    x ∈ t.insert r ↔ x = r ∨ (x ∈ t ∧ C.comp (key x) (key r) ≠ 0) := by
  rw [← mem_delete]
  exact List.mem_cons

@[simp] theorem mem_map {t : KeyedTable C key} {f : ρ → ρ} (hf : ∀ r, key (f r) = key r)
    {x : ρ} : x ∈ t.map f hf ↔ ∃ r ∈ t, f r = x := by
  simp [mem_def, map]

theorem mem_insert_self (t : KeyedTable C key) (r : ρ) : r ∈ t.insert r :=
  mem_insert.2 (Or.inl rfl)

/-- What holds of the records and of a new one holds after it is inserted. -/
theorem forall_insert {t : KeyedTable C key} {P : ρ → Prop} {r : ρ} (h : ∀ x ∈ t, P x)
    (hr : P r) : ∀ x ∈ t.insert r, P x := by
  intro x hx
  rcases mem_insert.1 hx with rfl | ⟨hmem, -⟩
  · exact hr
  · exact h x hmem

theorem forall_delete {t : KeyedTable C key} {P : ρ → Prop} (h : ∀ x ∈ t, P x) (k : κ) :
    ∀ x ∈ t.delete k, P x := fun x hx => h x (mem_delete.1 hx).1

/-- **One record for each key.** -/
theorem eq_of_comp_eq_zero {t : KeyedTable C key} {x y : ρ} (hx : x ∈ t) (hy : y ∈ t)
    (h : C.comp (key x) (key y) = 0) : x = y := by
  have : Std.Symm fun a b : ρ => C.comp (key a) (key b) ≠ 0 :=
    ⟨fun _ _ hab hba => hab (C.comp_symm hba)⟩
  by_contra hne
  exact t.distinct.forall hx hy hne h

/-! ## Lookups -/

/-- **A lookup finds exactly the stored record of an equal key.** -/
theorem retrieve_eq_some_iff {t : KeyedTable C key} {k : κ} {r : ρ} :
    t.retrieve k = some r ↔ r ∈ t ∧ C.comp (key r) k = 0 := by
  constructor
  · intro h
    exact ⟨List.mem_of_find?_eq_some h, by simpa using List.find?_some h⟩
  · rintro ⟨hmem, hk⟩
    have hfound : (t.retrieve k).isSome := by
      rw [retrieve, List.find?_isSome]
      exact ⟨r, hmem, by simpa using hk⟩
    obtain ⟨x, hx⟩ := Option.isSome_iff_exists.1 hfound
    have hxk : C.comp (key x) k = 0 := by simpa using List.find?_some hx
    have hxr : x = r := eq_of_comp_eq_zero (List.mem_of_find?_eq_some hx) hmem
      (C.comp_trans hxk (C.comp_symm hk))
    rw [hx, hxr]

theorem retrieve_eq_none_iff {t : KeyedTable C key} {k : κ} :
    t.retrieve k = none ↔ ∀ r ∈ t, C.comp (key r) k ≠ 0 := by
  simp [retrieve, mem_def]

/-- Equal keys find the same record. -/
theorem retrieve_congr {t : KeyedTable C key} {k k' : κ} (h : C.comp k k' = 0) :
    t.retrieve k = t.retrieve k' := by
  apply Option.ext
  intro r
  rw [retrieve_eq_some_iff, retrieve_eq_some_iff]
  refine and_congr_right fun _ => ⟨fun hr => C.comp_trans hr h, fun hr => ?_⟩
  exact C.comp_trans hr (C.comp_symm h)

/-- A lookup that compares the keys only where their hashes are equal. -/
def retrieveHashed {η : Type*} [DecidableEq η] (t : KeyedTable C key) (hash : κ → η) (k : κ) :
    Option ρ :=
  t.items.find? fun r => hash (key r) = hash k ∧ C.comp (key r) k = 0

/-- **It finds the same if equal keys have equal hashes.** -/
theorem retrieveHashed_eq {η : Type*} [DecidableEq η] {t : KeyedTable C key} {hash : κ → η} {k : κ}
    (h : ∀ r ∈ t, C.comp (key r) k = 0 → hash (key r) = hash k) :
    t.retrieveHashed hash k = t.retrieve k := by
  rw [retrieveHashed, retrieve, ← List.head?_filter, ← List.head?_filter]
  congr 1
  refine List.filter_congr fun r hr => ?_
  have hhash := h r hr
  by_cases hcomp : C.comp (key r) k = 0
  · simp [hcomp, hhash hcomp]
  · simp [hcomp]

theorem mem_of_retrieve {t : KeyedTable C key} {k : κ} {r : ρ} (h : t.retrieve k = some r) :
    r ∈ t :=
  (retrieve_eq_some_iff.1 h).1

theorem comp_of_retrieve {t : KeyedTable C key} {k : κ} {r : ρ} (h : t.retrieve k = some r) :
    C.comp (key r) k = 0 :=
  (retrieve_eq_some_iff.1 h).2

theorem mem_delete_of_mem {t : KeyedTable C key} {r x : ρ} (hr : r ∈ t) :
    x ∈ t.delete (key r) ↔ x ∈ t ∧ x ≠ r := by
  rw [mem_delete]
  refine and_congr_right fun hx => not_congr ⟨eq_of_comp_eq_zero hx hr, ?_⟩
  rintro rfl
  exact C.comp_self _

theorem mem_insert_of_free {t : KeyedTable C key} {r x : ρ} (hr : t.retrieve (key r) = none) :
    x ∈ t.insert r ↔ x = r ∨ x ∈ t := by
  rw [mem_insert]
  exact or_congr_right (and_iff_left_of_imp fun hx => retrieve_eq_none_iff.1 hr x hx)

theorem mem_insert_of_held {t : KeyedTable C key} {r x y : ρ}
    (hr : t.retrieve (key r) = some x) : y ∈ t.insert r ↔ y = r ∨ (y ∈ t ∧ y ≠ x) := by
  rw [mem_insert]
  refine or_congr_right (and_congr_right fun hy => not_congr ⟨?_, ?_⟩)
  · intro h
    exact eq_of_comp_eq_zero hy (mem_of_retrieve hr) (C.comp_trans h
      (C.comp_symm (comp_of_retrieve hr)))
  · rintro rfl
    exact comp_of_retrieve hr

theorem mem_delete_of_held {t : KeyedTable C key} {k : κ} {r x : ρ} (hr : t.retrieve k = some r) :
    x ∈ t.delete k ↔ x ∈ t ∧ x ≠ r := by
  rw [mem_delete]
  refine and_congr_right fun hx => not_congr ⟨fun hxk => ?_, ?_⟩
  · exact eq_of_comp_eq_zero hx (mem_of_retrieve hr)
      (C.comp_trans hxk (C.comp_symm (comp_of_retrieve hr)))
  · rintro rfl
    exact comp_of_retrieve hr

theorem retrieve_insert_of_comp {t : KeyedTable C key} {r : ρ} {k : κ}
    (h : C.comp (key r) k = 0) : (t.insert r).retrieve k = some r :=
  retrieve_eq_some_iff.2 ⟨mem_insert_self t r, h⟩

theorem retrieve_insert_of_ne {t : KeyedTable C key} {r : ρ} {k : κ}
    (h : C.comp (key r) k ≠ 0) : (t.insert r).retrieve k = t.retrieve k := by
  apply Option.ext
  intro x
  rw [retrieve_eq_some_iff, retrieve_eq_some_iff, mem_insert]
  constructor
  · rintro ⟨rfl | ⟨hx, -⟩, hk⟩
    · exact absurd hk h
    · exact ⟨hx, hk⟩
  · rintro ⟨hx, hk⟩
    refine ⟨Or.inr ⟨hx, fun hxr => h ?_⟩, hk⟩
    exact C.comp_trans (C.comp_symm hxr) hk

/-- A lookup does not see the deletion of another key. -/
theorem retrieve_delete_of_ne {t : KeyedTable C key} {k k' : κ} (h : C.comp k' k ≠ 0) :
    (t.delete k').retrieve k = t.retrieve k := by
  apply Option.ext
  intro x
  rw [retrieve_eq_some_iff, retrieve_eq_some_iff, mem_delete]
  constructor
  · rintro ⟨⟨hx, -⟩, hk⟩
    exact ⟨hx, hk⟩
  · rintro ⟨hx, hk⟩
    refine ⟨⟨hx, ?_⟩, hk⟩
    intro hxk
    exact h (C.comp_trans (C.comp_symm hxk) hk)

/-- A key stays free when another one is deleted. -/
theorem retrieve_delete_of_free {t : KeyedTable C key} {k k' : κ} (h : t.retrieve k = none) :
    (t.delete k').retrieve k = none :=
  retrieve_eq_none_iff.2 fun x hx => retrieve_eq_none_iff.1 h x (mem_delete.1 hx).1

/-- Deleting the record found under a key frees that key. -/
theorem retrieve_delete_of_held {t : KeyedTable C key} {k : κ} {r : ρ}
    (h : t.retrieve k = some r) : (t.delete (key r)).retrieve k = none := by
  apply retrieve_eq_none_iff.2
  intro x hx hxk
  exact (mem_delete.1 hx).2 (C.comp_trans hxk (C.comp_symm (comp_of_retrieve h)))

/-! ## Undoing an insertion -/

/-- Nothing is deleted under a free key. -/
theorem delete_of_free {t : KeyedTable C key} {k : κ} (h : t.retrieve k = none) :
    t.delete k = t := by
  apply ext
  rw [delete, List.filter_eq_self]
  intro r hr
  simpa using retrieve_eq_none_iff.1 h r hr

/-- What an insertion leaves once its record is deleted again. -/
theorem delete_insert_self (t : KeyedTable C key) (r : ρ) :
    (t.insert r).delete (key r) = t.delete (key r) := by
  apply ext
  simp [insert, delete, C.comp_self]

theorem delete_insert_of_free {t : KeyedTable C key} {r : ρ} (h : t.retrieve (key r) = none) :
    (t.insert r).delete (key r) = t := by
  rw [delete_insert_self, delete_of_free h]

/-! ## Keys compared for equality -/

section Exact

variable [DecidableEq κ] (hC : ∀ a b, C.comp a b = 0 ↔ a = b)
include hC

theorem retrieve_insert_ite (t : KeyedTable C key) (r : ρ) (k : κ) :
    (t.insert r).retrieve k = if key r = k then some r else t.retrieve k := by
  by_cases h : key r = k
  · rw [if_pos h]
    exact retrieve_insert_of_comp ((hC _ _).2 h)
  · rw [if_neg h]
    exact retrieve_insert_of_ne fun hk => h ((hC _ _).1 hk)

theorem retrieve_delete_ite (t : KeyedTable C key) (k k' : κ) :
    (t.delete k).retrieve k' = if k' = k then none else t.retrieve k' := by
  by_cases h : k' = k
  · subst h
    rw [if_pos rfl, retrieve_eq_none_iff]
    exact fun r hr => (mem_delete.1 hr).2
  · rw [if_neg h]
    exact retrieve_delete_of_ne fun hk => h ((hC _ _).1 hk).symm

end Exact

/-! ## Two indices over the same records -/

section Agree

variable {κ' : Type*} {D : Comparator κ'} {key' : ρ → κ'}

/-- The two tables hold the same records. -/
def Agree (t : KeyedTable C key) (u : KeyedTable D key') : Prop := ∀ r, r ∈ t ↔ r ∈ u

theorem agree_empty : Agree (∅ : KeyedTable C key) (∅ : KeyedTable D key') := by
  intro r
  simp

namespace Agree

variable {t : KeyedTable C key} {u : KeyedTable D key'}

/-- **Inserting in both keeps them in step exactly when both replace the same record**, or
neither replaces any. -/
theorem insert_iff (h : Agree t u) {r : ρ} :
    Agree (t.insert r) (u.insert r) ↔ t.retrieve (key r) = u.retrieve (key' r) := by
  constructor
  · intro hins
    apply Option.ext
    intro x
    simp only [retrieve_eq_some_iff, ← h x]
    apply and_congr_right
    intro hx
    by_cases hxr : x = r
    · subst hxr
      exact iff_of_true (C.comp_self _) (D.comp_self _)
    · have := hins x
      simp only [mem_insert, hxr, false_or, hx, (h x).1 hx, true_and] at this
      exact not_iff_not.1 this
  · intro heq x
    cases ht : t.retrieve (key r) with
    | none => rw [mem_insert_of_free ht, mem_insert_of_free (heq ▸ ht), h x]
    | some y => rw [mem_insert_of_held ht, mem_insert_of_held (heq ▸ ht), h x]

/-- A record whose two keys are free may be inserted in both. -/
theorem insert (h : Agree t u) {r : ρ} (ht : t.retrieve (key r) = none)
    (hu : u.retrieve (key' r) = none) : Agree (t.insert r) (u.insert r) :=
  h.insert_iff.2 (ht.trans hu.symm)

/-- A stored record may be deleted from both, each time by its own key. -/
theorem delete (h : Agree t u) {r : ρ} (hr : r ∈ t) :
    Agree (t.delete (key r)) (u.delete (key' r)) := by
  intro x
  rw [mem_delete_of_mem hr, mem_delete_of_mem ((h r).1 hr), h x]

/-- Both may be rewritten in place. -/
theorem map (h : Agree t u) {f : ρ → ρ} (ht : ∀ r, key (f r) = key r)
    (hu : ∀ r, key' (f r) = key' r) : Agree (t.map f ht) (u.map f hu) := by
  intro x
  simp only [mem_map, h _]

end Agree

end Agree

end KeyedTable
