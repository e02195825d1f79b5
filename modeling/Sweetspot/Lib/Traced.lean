import Sweetspot.Lib.Octets

/-!
# Computations and the memory they touch

A computation over a buffer together with the fields it reads and writes, as offsets with a size, in
the order in which it does.

* `Traced`: the value and the fields, with the monad that runs one computation after another.
* `Traced.Inside`: every field lies in the first `n` octets; `Traced.inside_bind` takes it apart
  along a computation.
-/

namespace Octets

/-- A value and the fields touched on the way to it. -/
structure Traced (α : Type) where
  value : α
  touched : List (ℕ × ℕ)

namespace Traced

variable {α β : Type}

instance : Monad Traced where
  pure a := ⟨a, []⟩
  bind x f := ⟨(f x.value).value, x.touched ++ (f x.value).touched⟩

/-- A field is touched, whatever for. -/
abbrev touch (off size : ℕ) : Traced Unit := ⟨(), [(off, size)]⟩

abbrev read8 (p : List UInt8) (off : ℕ) : Traced UInt8 := ⟨get8 p off, [(off, 1)]⟩
abbrev read16 (p : List UInt8) (off : ℕ) : Traced UInt16 := ⟨get16 p off, [(off, 2)]⟩
abbrev read32 (p : List UInt8) (off : ℕ) : Traced UInt32 := ⟨get32 p off, [(off, 4)]⟩

abbrev readStretch (p : List UInt8) (off n : ℕ) : Traced (List UInt8) :=
  ⟨stretch p off n, [(off, n)]⟩

abbrev write16 (p : List UInt8) (off : ℕ) (v : UInt16) : Traced (List UInt8) :=
  ⟨put16 p off v, [(off, 2)]⟩

abbrev write32 (p : List UInt8) (off : ℕ) (v : UInt32) : Traced (List UInt8) :=
  ⟨put32 p off v, [(off, 4)]⟩

/-! ## Values -/

@[simp] theorem value_pure (a : α) : (pure a : Traced α).value = a := rfl

@[simp] theorem value_bind (x : Traced α) (f : α → Traced β) :
    (x >>= f).value = (f x.value).value := rfl

@[simp] theorem value_read8 (p : List UInt8) (off : ℕ) : (read8 p off).value = get8 p off := rfl

@[simp] theorem value_read16 (p : List UInt8) (off : ℕ) : (read16 p off).value = get16 p off := rfl

@[simp] theorem value_read32 (p : List UInt8) (off : ℕ) : (read32 p off).value = get32 p off := rfl

@[simp] theorem value_readStretch (p : List UInt8) (off n : ℕ) :
    (readStretch p off n).value = stretch p off n := rfl

@[simp] theorem value_write16 (p : List UInt8) (off : ℕ) (v : UInt16) :
    (write16 p off v).value = put16 p off v := rfl

@[simp] theorem value_write32 (p : List UInt8) (off : ℕ) (v : UInt32) :
    (write32 p off v).value = put32 p off v := rfl

@[simp] theorem value_ite {c : Prop} [Decidable c] (x y : Traced α) :
    (if c then x else y).value = if c then x.value else y.value :=
  apply_ite value c x y

/-! ## Bounds -/

/-- Every field touched lies in the first `n` octets. -/
def Inside (n : ℕ) (x : Traced α) : Prop := ∀ r ∈ x.touched, r.1 + r.2 ≤ n

variable {n : ℕ}

@[simp] theorem inside_pure (a : α) : (pure a : Traced α).Inside n ↔ True := by
  constructor
  · exact fun _ => trivial
  · intro _ r hr
    cases hr

@[simp] theorem inside_bind (x : Traced α) (f : α → Traced β) :
    (x >>= f).Inside n ↔ x.Inside n ∧ (f x.value).Inside n :=
  List.forall_mem_append

theorem inside_singleton {x : Traced α} {off size : ℕ} (h : x.touched = [(off, size)]) :
    x.Inside n ↔ off + size ≤ n := by
  rw [Inside, h, List.forall_mem_singleton]

@[simp] theorem inside_touch (off size : ℕ) : (touch off size).Inside n ↔ off + size ≤ n :=
  inside_singleton rfl

@[simp] theorem inside_read8 (p : List UInt8) (off : ℕ) :
    (read8 p off).Inside n ↔ off + 1 ≤ n :=
  inside_singleton rfl

@[simp] theorem inside_read16 (p : List UInt8) (off : ℕ) :
    (read16 p off).Inside n ↔ off + 2 ≤ n :=
  inside_singleton rfl

@[simp] theorem inside_read32 (p : List UInt8) (off : ℕ) :
    (read32 p off).Inside n ↔ off + 4 ≤ n :=
  inside_singleton rfl

@[simp] theorem inside_readStretch (p : List UInt8) (off size : ℕ) :
    (readStretch p off size).Inside n ↔ off + size ≤ n :=
  inside_singleton rfl

@[simp] theorem inside_write16 (p : List UInt8) (off : ℕ) (v : UInt16) :
    (write16 p off v).Inside n ↔ off + 2 ≤ n :=
  inside_singleton rfl

@[simp] theorem inside_write32 (p : List UInt8) (off : ℕ) (v : UInt32) :
    (write32 p off v).Inside n ↔ off + 4 ≤ n :=
  inside_singleton rfl

@[simp] theorem inside_ite {c : Prop} [Decidable c] (x y : Traced α) :
    (if c then x else y).Inside n ↔ (c → x.Inside n) ∧ (¬ c → y.Inside n) := by
  by_cases hc : c <;> simp [hc]

end Traced

end Octets
