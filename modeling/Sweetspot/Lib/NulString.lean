import Mathlib.Data.List.Basic
import Mathlib.Tactic.Common

/-!
# Strings cut at their NUL octets

A message is cut into strings at its NUL octets, into so many slots at most.  The cut reads memory,
not the message: if the message does not end its last string, the string runs on into whatever is
behind it.  When does what is behind the message show?

* `str`: the string at the start of a piece of memory.
* `cut`: the strings of the message `s` with `tail` behind it.
* `RunsOn`: the last string is cut and not ended.
* `cut_eq_cut_iff`: what is behind shows exactly then.
* `cut_joined`: strings that are joined with a NUL each are cut as they were.
-/

namespace NulString

/-- The string at the start of `s`. -/
def str (s : List UInt8) : List UInt8 := s.takeWhile (· ≠ 0)

/-- The strings of `s`, cut into `slots` slots at most, with `tail` behind `s`; `false` if `s` has
more of them. -/
def cut : ℕ → List UInt8 → List UInt8 → List (List UInt8) × Bool
  | _, [], _ => ([], true)
  | 0, _ :: _, _ => ([], false)
  | slots + 1, c :: s, tail =>
    if 0 ∈ c :: s then
      let rest := cut slots ((c :: s).dropWhile (· ≠ 0)).tail tail
      (str (c :: s) :: rest.1, rest.2)
    else ([c :: s ++ str tail], true)

/-- The last string of `s` gets a slot, and `s` does not end it. -/
def RunsOn (slots : ℕ) (s : List UInt8) : Prop :=
  s ≠ [] ∧ s.getLast? ≠ some 0 ∧ s.count 0 < slots

/-- The strings `strs`, each with its NUL. -/
def joined (strs : List (List UInt8)) : List UInt8 := (strs.map fun s => s ++ [0]).flatten

/-! ## The string at the start -/

theorem ne_nul_of_notMem {s : List UInt8} (hs : 0 ∉ s) : ∀ c ∈ s, decide (c ≠ 0) = true := by
  intro c hc
  have hne : c ≠ 0 := fun h => hs (h ▸ hc)
  simpa using hne

theorem str_append_of_notMem {s : List UInt8} (hs : 0 ∉ s) (tail : List UInt8) :
    str (s ++ tail) = s ++ str tail :=
  List.takeWhile_append_of_pos (ne_nul_of_notMem hs)

theorem str_of_notMem {s : List UInt8} (hs : 0 ∉ s) : str s = s := by
  have h := str_append_of_notMem hs []
  rwa [List.append_nil, show str [] = [] from rfl, List.append_nil] at h

@[simp] theorem str_nul (s : List UInt8) : str (0 :: s) = [] := rfl

theorem str_append_nul {pre : List UInt8} (hpre : 0 ∉ pre) (rest : List UInt8) :
    str (pre ++ 0 :: rest) = pre := by
  rw [str_append_of_notMem hpre, str_nul, List.append_nil]

/-! ## The cut -/

variable {slots : ℕ} {s tail tail' : List UInt8}

@[simp] theorem cut_nil (slots : ℕ) (tail : List UInt8) : cut slots [] tail = ([], true) := by
  cases slots <;> rfl

theorem cut_zero (hs : s ≠ []) (tail : List UInt8) : cut 0 s tail = ([], false) := by
  cases s with
  | nil => exact absurd rfl hs
  | cons c s => rfl

theorem cut_append_nul {pre : List UInt8} (hpre : 0 ∉ pre) (slots : ℕ) (rest tail : List UInt8) :
    cut (slots + 1) (pre ++ 0 :: rest) tail =
      (pre :: (cut slots rest tail).1, (cut slots rest tail).2) := by
  have hmem : 0 ∈ pre ++ 0 :: rest := by simp
  have hrest : ((pre ++ 0 :: rest).dropWhile (· ≠ 0)).tail = rest := by
    rw [List.dropWhile_append_of_pos (ne_nul_of_notMem hpre)]
    rfl
  have hstr := str_append_nul hpre rest
  cases hs : pre ++ 0 :: rest with
  | nil => simp at hs
  | cons c s =>
    rw [hs] at hmem hrest hstr
    rw [cut, if_pos hmem, hrest, hstr]

theorem cut_of_notMem (hs : 0 ∉ s) (hne : s ≠ []) (slots : ℕ) (tail : List UInt8) :
    cut (slots + 1) s tail = ([s ++ str tail], true) := by
  cases s with
  | nil => exact absurd rfl hne
  | cons c s => rw [cut, if_neg hs]

theorem runsOn_append_nul {pre : List UInt8} (hpre : 0 ∉ pre) (slots : ℕ) (rest : List UInt8) :
    RunsOn (slots + 1) (pre ++ 0 :: rest) ↔ RunsOn slots rest := by
  have hcount : (pre ++ 0 :: rest).count 0 = rest.count 0 + 1 := by
    rw [List.count_append, List.count_eq_zero.mpr hpre, List.count_cons_self, Nat.zero_add]
  cases rest with
  | nil => simp [RunsOn]
  | cons c rest =>
    rw [RunsOn, RunsOn, hcount, List.getLast?_append_cons, List.getLast?_cons_cons]
    simp

theorem runsOn_of_notMem (hs : 0 ∉ s) (hne : s ≠ []) (slots : ℕ) : RunsOn (slots + 1) s := by
  refine ⟨hne, fun hlast => hs (List.mem_of_getLast? hlast), ?_⟩
  rw [List.count_eq_zero.mpr hs]
  omega

/-- The first string is ended or not. -/
theorem notMem_or_eq_append (s : List UInt8) :
    0 ∉ s ∨ ∃ pre rest, s = pre ++ 0 :: rest ∧ 0 ∉ pre := by
  by_cases hs : 0 ∈ s
  · exact Or.inr (List.eq_append_cons_of_mem hs)
  · exact Or.inl hs

/-- **What is behind the message shows exactly if the last string runs on into it.** -/
theorem cut_eq_cut_iff :
    cut slots s tail = cut slots s tail' ↔ ¬ RunsOn slots s ∨ str tail = str tail' := by
  induction slots generalizing s with
  | zero =>
    refine iff_of_true ?_ (Or.inl fun h => absurd h.2.2 (Nat.not_lt_zero _))
    by_cases hne : s = []
    · rw [hne, cut_nil, cut_nil]
    · rw [cut_zero hne, cut_zero hne]
  | succ slots ih =>
    by_cases hne : s = []
    · subst hne
      exact iff_of_true (by rw [cut_nil, cut_nil]) (Or.inl fun h => h.1 rfl)
    rcases notMem_or_eq_append s with hs | ⟨pre, rest, rfl, hpre⟩
    · rw [cut_of_notMem hs hne, cut_of_notMem hs hne]
      have hruns := runsOn_of_notMem hs hne slots
      simp [hruns]
    · rw [cut_append_nul hpre, cut_append_nul hpre, runsOn_append_nul hpre, ← ih]
      simp [Prod.ext_iff]

/-- A string is no longer than the message, unless it runs on. -/
theorem length_le_of_mem_cut (h : ¬ RunsOn slots s ∨ str tail = []) :
    ∀ arg ∈ (cut slots s tail).1, arg.length ≤ s.length := by
  induction slots generalizing s with
  | zero =>
    by_cases hne : s = []
    · simp [hne]
    · simp [cut_zero hne]
  | succ slots ih =>
    by_cases hne : s = []
    · simp [hne]
    rcases notMem_or_eq_append s with hs | ⟨pre, rest, rfl, hpre⟩
    · have hruns := runsOn_of_notMem hs hne slots
      have htail : str tail = [] := h.resolve_left (not_not.mpr hruns)
      simp [cut_of_notMem hs hne, htail]
    · rw [runsOn_append_nul hpre] at h
      rw [cut_append_nul hpre]
      intro arg harg
      rw [List.length_append, List.length_cons]
      rcases List.mem_cons.mp harg with rfl | harg
      · omega
      · have := ih h arg harg
        omega

/-- **Strings that were joined are cut as they were.** -/
theorem cut_joined {strs : List (List UInt8)} (hstrs : ∀ s ∈ strs, 0 ∉ s)
    (hslots : strs.length ≤ slots) (tail : List UInt8) :
    cut slots (joined strs) tail = (strs, true) := by
  induction strs generalizing slots with
  | nil => exact cut_nil _ _
  | cons s strs ih =>
    cases slots with
    | zero => simp at hslots
    | succ slots =>
      have hjoined : joined (s :: strs) = s ++ 0 :: joined strs := by simp [joined]
      rw [hjoined, cut_append_nul (hstrs s List.mem_cons_self),
        ih (fun s hs => hstrs s (List.mem_cons_of_mem _ hs)) (by simpa using hslots)]

end NulString
