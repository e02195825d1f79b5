import Mathlib.Data.List.Induction
import Mathlib.Tactic.Common

/-!
# Trails

What was done in a run of a step function, and what is read off it.

* `trail`: the labels of a run, each with the state it was fired in.
* `latestMark`: the last value that a trail marks.
* `latestMark_of_tracks`: a quantity that a step leaves alone unless it marks a value is the last
  value marked, however often it was marked before.
* `exists_step_of_not`: what holds after a run and did not hold before it came about in a step.
* `foldl_focus`: a pass over keys does to a key what one call does.
-/

variable {σ α β ι γ : Type*}

/-- The labels of a run from `s`, each with the state it is fired in. -/
def trail (f : σ → α → σ) : σ → List α → List (σ × α)
  | _, [] => []
  | s, a :: as => (s, a) :: trail f (f s a) as

theorem trail_concat (f : σ → α → σ) (s : σ) (as : List α) (a : α) :
    trail f s (as ++ [a]) = trail f s as ++ [(as.foldl f s, a)] := by
  induction as generalizing s with
  | nil => rfl
  | cons b as ih => rw [List.cons_append, trail, ih, trail, List.foldl_cons, List.cons_append]

/-- **What did not hold at first came about in a step.** -/
theorem exists_step_of_not {f : σ → α → σ} (P : σ → Prop) {s : σ} {as : List α} (hs : ¬ P s)
    (h : P (as.foldl f s)) :
    ∃ pre a post, as = pre ++ a :: post ∧ ¬ P (pre.foldl f s) ∧ P (f (pre.foldl f s) a) := by
  induction as generalizing s with
  | nil => exact absurd h hs
  | cons a as ih =>
    by_cases ha : P (f s a)
    · exact ⟨[], a, as, rfl, hs, ha⟩
    · obtain ⟨pre, b, post, rfl, hpre, hb⟩ := ih ha h
      exact ⟨a :: pre, b, post, rfl, hpre, hb⟩

/-- The value a trail marks last. -/
def latestMark (mark : σ → α → Option β) (h : List (σ × α)) : Option β :=
  (h.filterMap fun x => mark x.1 x.2).getLast?

theorem latestMark_concat (mark : σ → α → Option β) (h : List (σ × α)) (s : σ) (a : α) :
    latestMark mark (h ++ [(s, a)]) = (mark s a).or (latestMark mark h) := by
  rw [latestMark, List.filterMap_append, List.getLast?_append, latestMark]
  cases h : mark s a with
  | none => simp [h]
  | some v => simp [h]

/-- The last of the images of what is marked is the image of the last. -/
theorem latestMark_map {mark : σ → α → Option β} (f : β → γ) (h : List (σ × α)) :
    latestMark (fun s a => (mark s a).map f) h = (latestMark mark h).map f := by
  rw [latestMark, latestMark, ← List.getLast?_map, List.map_filterMap]

/-- **The last-mark rule.**  Suppose that the labels meet a guard under which `I` is kept, and that
after such a step a quantity is what the step marks, or what it was if the step marks nothing.  Then
it is the value marked last. -/
theorem latestMark_of_tracks {f : σ → α → σ} {mark : σ → α → Option β} {q : σ → Option β}
    {G : α → Prop} {I : σ → Prop} (hI : ∀ s a, G a → I s → I (f s a))
    (hq : ∀ s a v, G a → I s → q (f s a) = some v → (mark s a).or (q s) = some v)
    {s₀ : σ} (hs₀ : I s₀) (hq₀ : q s₀ = none) {as : List α} (has : ∀ a ∈ as, G a) :
    I (as.foldl f s₀) ∧
      ∀ v, q (as.foldl f s₀) = some v → latestMark mark (trail f s₀ as) = some v := by
  induction as using List.reverseRecOn with
  | nil =>
    refine ⟨hs₀, fun v hv => ?_⟩
    rw [List.foldl_nil, hq₀] at hv
    cases hv
  | append_singleton as a ih =>
    obtain ⟨hs, ih⟩ := ih fun b hb => has b (List.mem_append_left _ hb)
    have ha : G a := has a (List.mem_append_right _ List.mem_cons_self)
    rw [List.foldl_append, List.foldl_cons, List.foldl_nil]
    refine ⟨hI _ a ha hs, fun v hv => ?_⟩
    rw [trail_concat, latestMark_concat]
    have hv' := hq _ a v ha hs hv
    cases hmark : mark (as.foldl f s₀) a with
    | some w => simpa [hmark] using hv'
    | none =>
      rw [hmark, Option.none_or] at hv'
      exact ih v hv'

/-- The rule where every label is in order and the step is seen through the quantity alone. -/
theorem latestMark_of_view {f : σ → α → σ} {mark : σ → α → Option β} (q : σ → Option β)
    (hq : ∀ s a v, q (f s a) = some v → (mark s a).or (q s) = some v) {s₀ : σ} (hq₀ : q s₀ = none)
    {as : List α} {v : β} (hv : q (as.foldl f s₀) = some v) :
    latestMark mark (trail f s₀ as) = some v :=
  (latestMark_of_tracks (G := fun _ => True) (I := fun _ => True) (fun _ _ _ h => h)
    (fun s a v _ _ => hq s a v) trivial hq₀ fun _ _ => trivial).2 v hv

/-! ## Passes -/

/-- **A pass, seen from one key.**  Where the call for a key changes nothing of the others, a pass
over different keys does to each of them what its call does in some state that looked the same. -/
theorem foldl_focus {f : σ → ι → σ} {look : σ → ι → γ}
    (hframe : ∀ s i j, j ≠ i → look (f s i) j = look s j) {is : List ι} (hnodup : is.Nodup) {i : ι}
    (hi : i ∈ is) (s : σ) :
    ∃ s', look s' i = look s i ∧ look (is.foldl f s) i = look (f s' i) i := by
  have hkept : ∀ (js : List ι) (s : σ), i ∉ js → look (js.foldl f s) i = look s i := by
    intro js
    induction js with
    | nil => exact fun _ _ => rfl
    | cons j js ih =>
      intro s hnot
      have hj : i ≠ j := List.ne_of_not_mem_cons hnot
      have hjs : i ∉ js := List.not_mem_of_not_mem_cons hnot
      rw [List.foldl_cons, ih (f s j) hjs, hframe s j i hj]
  obtain ⟨pre, post, rfl⟩ := List.append_of_mem hi
  have hnot := (List.nodup_cons.1 (List.perm_middle.nodup_iff.1 hnodup)).1
  rw [List.mem_append, not_or] at hnot
  refine ⟨pre.foldl f s, hkept pre s hnot.1, ?_⟩
  rw [List.foldl_append, List.foldl_cons, hkept post _ hnot.2]
