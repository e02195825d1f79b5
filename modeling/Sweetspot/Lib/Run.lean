import Mathlib.Data.List.Induction
import Mathlib.Tactic.Common

/-!
# Runs of a labelled step relation

A run is a finite sequence of labelled steps.  The rules here are the inductions every safety
argument uses: an invariant of the steps is an invariant of the runs (`Run.invariant`), a run
over `as ++ bs` is a run over `as` followed by one over `bs` (`Run.append_iff`), and a property
that speaks about the labels fired so far is proved one label at a time (`Run.history`).  When the
steps keep the invariant only where a guard is met, so do the runs all of whose steps meet it
(`Run.Guarded`, `Run.invariant_of_guarded`); and when no other step does, the guard says exactly
which runs keep it (`Run.always_iff_guarded`).
-/

variable {σ α : Type*}

/-- `Run step s as s'`: the labels `as`, fired one after the other, lead from `s` to `s'`. -/
inductive Run (step : σ → α → σ → Prop) : σ → List α → σ → Prop
  | nil (s : σ) : Run step s [] s
  | cons {s s' s'' : σ} {a : α} {as : List α} :
      step s a s' → Run step s' as s'' → Run step s (a :: as) s''

namespace Run

variable {step : σ → α → σ → Prop}

theorem single {s s' : σ} {a : α} (h : step s a s') : Run step s [a] s' :=
  cons h (nil s')

theorem nil_iff {s s' : σ} : Run step s [] s' ↔ s' = s := by
  constructor
  · rintro ⟨⟩
    rfl
  · rintro rfl
    exact nil _

theorem cons_iff {s s'' : σ} {a : α} {as : List α} :
    Run step s (a :: as) s'' ↔ ∃ s', step s a s' ∧ Run step s' as s'' := by
  constructor
  · rintro (_ | ⟨h, hrun⟩)
    exact ⟨_, h, hrun⟩
  · rintro ⟨s', h, hrun⟩
    exact cons h hrun

/-- A run splits wherever its labels split. -/
theorem append_iff {s s'' : σ} {as bs : List α} :
    Run step s (as ++ bs) s'' ↔ ∃ s', Run step s as s' ∧ Run step s' bs s'' := by
  induction as generalizing s with
  | nil => simp [nil_iff]
  | cons a as ih =>
    simp only [List.cons_append, cons_iff, ih]
    constructor
    · rintro ⟨s₁, h, s', has, hbs⟩
      exact ⟨s', ⟨s₁, h, has⟩, hbs⟩
    · rintro ⟨s', ⟨s₁, h, has⟩, hbs⟩
      exact ⟨s₁, h, s', has, hbs⟩

/-- The last step of a run. -/
theorem concat_iff {s s'' : σ} {as : List α} {a : α} :
    Run step s (as ++ [a]) s'' ↔ ∃ s', Run step s as s' ∧ step s' a s'' := by
  rw [append_iff]
  refine exists_congr fun s' => and_congr_right fun _ => ⟨?_, single⟩
  rintro (_ | ⟨h, ⟨⟩⟩)
  exact h

/-- A deterministic step relation has one run over given labels. -/
theorem unique (hdet : ∀ s a s₁ s₂, step s a s₁ → step s a s₂ → s₁ = s₂) {s s₁ s₂ : σ}
    {as : List α} (h₁ : Run step s as s₁) (h₂ : Run step s as s₂) : s₁ = s₂ := by
  induction h₁ with
  | nil => exact (nil_iff.1 h₂).symm
  | cons hstep _ ih =>
    obtain ⟨_, hstep', hrun⟩ := cons_iff.1 h₂
    exact ih (hdet _ _ _ _ hstep' hstep ▸ hrun)

/-- **The history rule.** A property of the labels fired so far and the state they led to holds of
every run if it holds at the start and one more step keeps it. -/
theorem history {s₀ : σ} {P : List α → σ → Prop} (hnil : P [] s₀)
    (hstep : ∀ as s a s', Run step s₀ as s → P as s → step s a s' → P (as ++ [a]) s')
    {as : List α} {s : σ} (hrun : Run step s₀ as s) : P as s := by
  induction as using List.reverseRecOn generalizing s with
  | nil =>
    obtain rfl := nil_iff.1 hrun
    exact hnil
  | append_singleton as a ih =>
    obtain ⟨s', has, ha⟩ := concat_iff.1 hrun
    exact hstep as s' a s has (ih has) ha

/-- **The invariant rule.** What every step preserves, every run preserves. -/
theorem invariant {P : σ → Prop} (hstep : ∀ s a s', step s a s' → P s → P s') {s s' : σ}
    {as : List α} (hrun : Run step s as s') (hs : P s) : P s' := by
  induction hrun with
  | nil => exact hs
  | cons h _ ih => exact ih (hstep _ _ _ h hs)

theorem mono {step' : σ → α → σ → Prop} (h : ∀ s a s', step s a s' → step' s a s') {s s' : σ}
    {as : List α} (hrun : Run step s as s') : Run step' s as s' := by
  induction hrun with
  | nil s => exact nil s
  | cons hstep _ ih => exact cons (h _ _ _ hstep) ih

/-- Runs of a step function can be computed. -/
theorem of_foldlM {f : σ → α → Option σ} {s s' : σ} {as : List α}
    (h : as.foldlM f s = some s') : Run (fun s a s' => f s a = some s') s as s' := by
  induction as generalizing s with
  | nil =>
    obtain rfl := Option.some.inj h
    exact nil s
  | cons a as ih =>
    rw [List.foldlM_cons] at h
    obtain ⟨s₁, hs₁, hrest⟩ := Option.bind_eq_some_iff.1 h
    exact cons hs₁ (ih hrest)

/-- So can those of a function that is defined everywhere. -/
theorem of_foldl (f : σ → α → σ) (s : σ) (as : List α) :
    Run (fun s a s' => s' = f s a) s as (as.foldl f s) := by
  induction as generalizing s with
  | nil => exact nil s
  | cons a as ih => exact cons rfl (ih (f s a))

/-! ## Runs under a guard -/

/-- Every label of the run that starts in `s` meets the guard `G` in the state it fires in. -/
def Guarded (step : σ → α → σ → Prop) (G : σ → α → Prop) (s : σ) (as : List α) : Prop :=
  ∀ pre a post s', as = pre ++ a :: post → Run step s pre s' → G s' a

theorem guarded_nil {G : σ → α → Prop} (s : σ) : Guarded step G s [] := by
  intro pre a post s' h
  simp at h

/-- The guard on the first label, and on the rest in the states it leads to. -/
theorem guarded_cons {G : σ → α → Prop} {s : σ} {a : α} {as : List α} :
    Guarded step G s (a :: as) ↔ G s a ∧ ∀ s', step s a s' → Guarded step G s' as := by
  constructor
  · intro h
    refine ⟨h [] a as s rfl (nil s), ?_⟩
    rintro s' ha pre b post s'' rfl hpre
    exact h (a :: pre) b post s'' rfl (cons ha hpre)
  · rintro ⟨ha, has⟩ pre b post s' hlabels hpre
    cases hpre with
    | nil =>
      obtain ⟨rfl, -⟩ := List.cons.inj hlabels
      exact ha
    | cons hstep hpre =>
      obtain ⟨rfl, rfl⟩ := List.cons.inj hlabels
      exact has _ hstep _ b post s' rfl hpre

theorem Guarded.of_append {G : σ → α → Prop} {s : σ} {as bs : List α}
    (h : Guarded step G s (as ++ bs)) : Guarded step G s as := by
  rintro pre a post s' rfl hpre
  exact h pre a (post ++ bs) s' (by simp) hpre

/-- The guard on the last label. -/
theorem Guarded.last {G : σ → α → Prop} {s s' : σ} {as : List α} {a : α}
    (h : Guarded step G s (as ++ [a])) (hrun : Run step s as s') : G s' a :=
  h as a [] s' rfl hrun

/-- One more label keeps a run guarded just if it meets the guard itself. -/
theorem guarded_concat {G : σ → α → Prop}
    (hdet : ∀ s a s₁ s₂, step s a s₁ → step s a s₂ → s₁ = s₂) {s s' : σ} {as : List α} {a : α}
    (hrun : Run step s as s') :
    Guarded step G s (as ++ [a]) ↔ Guarded step G s as ∧ G s' a := by
  constructor
  · intro h
    exact ⟨h.of_append, h.last hrun⟩
  · rintro ⟨has, ha⟩ pre b post s'' heq hpre
    rcases List.eq_nil_or_concat post with rfl | ⟨post, c, rfl⟩
    · obtain ⟨rfl, hb⟩ := List.append_inj' heq rfl
      obtain rfl := List.singleton_inj.1 hb
      rwa [unique hdet hpre hrun]
    · have heq' : as ++ [a] = (pre ++ b :: post) ++ [c] := by simpa using heq
      obtain ⟨rfl, -⟩ := List.append_inj' heq' rfl
      exact has pre b post s'' rfl hpre

/-- Guarded runs of a step function can be computed. -/
theorem guarded_of_foldlM {f : σ → α → Option σ} {G : σ → α → Prop} [∀ s a, Decidable (G s a)]
    {s s' : σ} {as : List α}
    (h : as.foldlM (fun s a => if G s a then f s a else none) s = some s') :
    Run (fun s a s' => f s a = some s') s as s' ∧
      Guarded (fun s a s' => f s a = some s') G s as := by
  induction as generalizing s with
  | nil =>
    obtain rfl := Option.some.inj h
    exact ⟨nil s, guarded_nil s⟩
  | cons a as ih =>
    rw [List.foldlM_cons] at h
    obtain ⟨s₁, hs₁, hrest⟩ := Option.bind_eq_some_iff.1 h
    by_cases hG : G s a
    · rw [if_pos hG] at hs₁
      obtain ⟨hrun, hguard⟩ := ih hrest
      refine ⟨cons hs₁ hrun, guarded_cons.2 ⟨hG, ?_⟩⟩
      intro s₂ hs₂
      obtain rfl := Option.some.inj (hs₁.symm.trans hs₂)
      exact hguard
    · rw [if_neg hG] at hs₁
      cases hs₁

/-- **The guarded invariant rule.** What every step that meets the guard preserves, every run
whose steps all meet it preserves. -/
theorem invariant_of_guarded {G : σ → α → Prop} {P : σ → Prop}
    (hstep : ∀ s a s', step s a s' → G s a → P s → P s') {s₀ s : σ} {as : List α}
    (hrun : Run step s₀ as s) (hguard : Guarded step G s₀ as) (hs : P s₀) : P s := by
  refine hrun.history (P := fun as s => Guarded step G s₀ as → P s) (fun _ => hs) ?_ hguard
  intro as s a s' hrun ih ha hguard
  exact hstep s a s' ha (hguard.last hrun) (ih hguard.of_append)

/-- A guard met in every state a label fires in may be replaced by one equivalent to it there. -/
theorem Guarded.congr {G H : σ → α → Prop} (h : ∀ s a, G s a ↔ H s a) {s : σ} {as : List α} :
    Guarded step G s as ↔ Guarded step H s as := by
  constructor
  · intro hguard pre a post s' has hpre
    exact (h s' a).1 (hguard pre a post s' has hpre)
  · intro hguard pre a post s' has hpre
    exact (h s' a).2 (hguard pre a post s' has hpre)

/-- **Two guards.**  Where an invariant makes them the same, and is kept by the steps that meet
them, they are the same along every run. -/
theorem guarded_iff_guarded {G H : σ → α → Prop} {I : σ → Prop} {as : List α}
    (hiff : ∀ a ∈ as, ∀ s, I s → (G s a ↔ H s a))
    (hstep : ∀ a ∈ as, ∀ s s', step s a s' → H s a → I s → I s') {s : σ} (hs : I s) :
    Guarded step G s as ↔ Guarded step H s as := by
  induction as generalizing s with
  | nil => exact iff_of_true (guarded_nil s) (guarded_nil s)
  | cons a as ih =>
    rw [guarded_cons, guarded_cons, hiff a List.mem_cons_self s hs]
    refine and_congr_right fun hH => forall_congr' fun s' => imp_congr_right fun ha => ?_
    exact ih (fun b hb => hiff b (List.mem_cons_of_mem a hb))
      (fun b hb => hstep b (List.mem_cons_of_mem a hb)) (hstep a List.mem_cons_self s s' ha hH hs)

/-- `P` holds in every state of the run over `as` that starts in `s`. -/
def Always (step : σ → α → σ → Prop) (P : σ → Prop) (s : σ) (as : List α) : Prop :=
  ∀ pre post s', as = pre ++ post → Run step s pre s' → P s'

/-- **The exact guard rule.** Suppose that the steps that meet a guard keep an invariant, that the
invariant is enough for `P`, and that a step after which `P` still holds met the guard.  Then `P`
holds all along a run exactly if all its steps meet the guard. -/
theorem always_iff_guarded {G : σ → α → Prop} {I P : σ → Prop}
    (hdet : ∀ s a s₁ s₂, step s a s₁ → step s a s₂ → s₁ = s₂) (henough : ∀ s, I s → P s)
    (hgood : ∀ s a s', step s a s' → G s a → I s → I s')
    (hbad : ∀ s a s', step s a s' → I s → P s' → G s a) {s₀ s : σ} {as : List α}
    (hrun : Run step s₀ as s) (hs : I s₀) : Always step P s₀ as ↔ Guarded step G s₀ as := by
  constructor
  · intro halways
    -- the invariant follows from `P` in the states so far, one label at a time
    have hinv : ∀ pre s', Run step s₀ pre s' → (∃ post, as = pre ++ post) → I s' := by
      intro pre s' hpre
      refine hpre.history (P := fun pre s' => (∃ post, as = pre ++ post) → I s') (fun _ => hs) ?_
      rintro pre s' a s'' hpre ih ha ⟨post, has⟩
      have hI : I s' := ih ⟨a :: post, by simpa using has⟩
      have hP : P s'' := halways (pre ++ [a]) post s'' has (concat_iff.2 ⟨s', hpre, ha⟩)
      exact hgood s' a s'' ha (hbad s' a s'' ha hI hP) hI
    intro pre a post s' has hpre
    rw [has] at hrun
    obtain ⟨s₁, hpre₁, hpost⟩ := append_iff.1 hrun
    obtain ⟨s₂, ha, -⟩ := cons_iff.1 hpost
    obtain rfl := unique hdet hpre hpre₁
    have hP : P s₂ :=
      halways (pre ++ [a]) post s₂ (by simp [has]) (concat_iff.2 ⟨s', hpre, ha⟩)
    exact hbad s' a s₂ ha (hinv pre s' hpre ⟨a :: post, has⟩) hP
  · rintro hguard pre post s' rfl hpre
    exact henough s' (invariant_of_guarded hgood hpre hguard.of_append hs)

end Run
