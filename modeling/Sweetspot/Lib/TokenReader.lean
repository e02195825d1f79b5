import Mathlib.Order.Nat

/-!
# Parsers that look one token ahead

A parser takes tokens off the front of a list, or fails.  It decides what to do by the next token
alone, and it never takes a token back.

* `tryToken`, `ifNext`, `token`, `expect`: one token.
* `whileNext`, `all`: loops.  Each round takes a token, so the length of the list bounds them.
* `Yields`, `Shrinks`: what is parsed, and that nothing is put back; each is a rule for every
  construction.
* `all_cons`: all items are one and then the rest.
* `Says`: what a parser says of a sentence and where it stops, again with a rule for every
  construction.
* `Reads`: the other way, that whatever is parsed is a sentence.
* `NeverFails`: a failure that a parser does not have.
-/

namespace Sweetspot

/-- A parser of tokens `τ` that fails with an `ε`. -/
def TokenReader (ε τ α : Type) := List τ → Except ε (α × List τ)

namespace TokenReader

variable {ε τ α β σ : Type}

instance : Monad (TokenReader ε τ) where
  pure a := fun ts => .ok (a, ts)
  bind p f := fun ts =>
    match p ts with
    | .error e => .error e
    | .ok (a, rest) => f a rest

def fail (e : ε) : TokenReader ε τ α := fun _ => .error e

/-- Take the next token if `f` knows it. -/
def tryToken (f : τ → Option α) (p : α → TokenReader ε τ β) (q : TokenReader ε τ β) :
    TokenReader ε τ β
  | [] => q []
  | t :: ts =>
    match f t with
    | some a => p a ts
    | none => q (t :: ts)

/-- Take the next token, which `f` has to know. -/
def token (f : τ → Option α) (e : ε) : TokenReader ε τ α := tryToken f pure (fail e)

/-- Take the next token if it is `t`. -/
def ifNext [DecidableEq τ] (t : τ) (p q : TokenReader ε τ β) : TokenReader ε τ β :=
  tryToken (fun x => if x = t then some () else none) (fun _ => p) q

/-- Take the next token, which has to be `t`. -/
def expect [DecidableEq τ] (t : τ) (e : ε) : TokenReader ε τ Unit := ifNext t (pure ()) (fail e)

def whileNextFuel [DecidableEq τ] (t : τ) (step : σ → TokenReader ε τ σ) : ℕ → σ → TokenReader ε τ σ
  | 0, s => pure s
  | fuel + 1, s => ifNext t (step s >>= whileNextFuel t step fuel) (pure s)

/-- One more step for as long as the next token is `t`. -/
def whileNext [DecidableEq τ] (t : τ) (step : σ → TokenReader ε τ σ) (s : σ) : TokenReader ε τ σ :=
  fun ts => whileNextFuel t step ts.length s ts

def allFuel (p : TokenReader ε τ α) (e : ε) : ℕ → List τ → Except ε (List α)
  | _, [] => .ok []
  | 0, _ :: _ => .error e
  | fuel + 1, t :: ts =>
    (p (t :: ts)).bind fun (a, rest) => (allFuel p e fuel rest).map (a :: ·)

/-- One item after the other, to the end. -/
def all (p : TokenReader ε τ α) (e : ε) (ts : List τ) : Except ε (List α) :=
  allFuel p e ts.length ts

/-! ## What is parsed -/

theorem bind_eq_ok_iff {p : TokenReader ε τ α} {f : α → TokenReader ε τ β} {ts rest : List τ}
    {b : β} :
    (p >>= f) ts = .ok (b, rest) ↔ ∃ a mid, p ts = .ok (a, mid) ∧ f a mid = .ok (b, rest) := by
  show (match p ts with | .error e => _ | .ok (a, mid) => _) = _ ↔ _
  cases p ts with
  | error e => simp
  | ok r =>
    constructor
    · intro h
      exact ⟨r.1, r.2, rfl, h⟩
    · rintro ⟨a, mid, hr, h⟩
      cases hr
      exact h

/-- Three parsers in a row. -/
theorem bind_bind {γ : Type} (p : TokenReader ε τ α) (f : α → TokenReader ε τ β)
    (g : β → TokenReader ε τ γ) : (p >>= f) >>= g = p >>= fun a => f a >>= g := by
  funext ts
  show (match (match p ts with | .error e => Except.error e | .ok (a, mid) => f a mid) with
    | .error e => Except.error e | .ok (b, mid) => g b mid) =
      (match p ts with | .error e => Except.error e | .ok (a, mid) => (f a >>= g) mid)
  cases p ts with
  | error e => rfl
  | ok r => rfl

/-- Whatever is parsed has the property. -/
def Yields (p : TokenReader ε τ α) (P : α → Prop) : Prop :=
  ∀ ⦃ts a rest⦄, p ts = .ok (a, rest) → P a

theorem yields_pure {P : α → Prop} {a : α} (h : P a) : Yields (pure a : TokenReader ε τ α) P := by
  intro ts b rest hb
  cases hb
  exact h

theorem yields_fail {P : α → Prop} (e : ε) : Yields (fail e : TokenReader ε τ α) P := by
  intro ts a rest h
  cases h

theorem Yields.bind {P : α → Prop} {Q : β → Prop} {p : TokenReader ε τ α}
    {f : α → TokenReader ε τ β} (hp : Yields p P) (hf : ∀ a, P a → Yields (f a) Q) :
    Yields (p >>= f) Q := by
  intro ts b rest h
  obtain ⟨a, mid, ha, hb⟩ := bind_eq_ok_iff.1 h
  exact hf a (hp ha) hb

/-- What was parsed before does not matter. -/
theorem yields_bind {Q : β → Prop} {p : TokenReader ε τ α} {f : α → TokenReader ε τ β}
    (hf : ∀ a, Yields (f a) Q) : Yields (p >>= f) Q := by
  intro ts b rest h
  obtain ⟨a, mid, -, hb⟩ := bind_eq_ok_iff.1 h
  exact hf a hb

theorem yields_tryToken_of {P : β → Prop} {f : τ → Option α} {p : α → TokenReader ε τ β}
    {q : TokenReader ε τ β} (hp : ∀ t a, f t = some a → Yields (p a) P) (hq : Yields q P) :
    Yields (tryToken f p q) P := by
  intro ts b rest h
  cases ts with
  | nil => exact hq h
  | cons t ts =>
    rw [tryToken] at h
    split at h
    · rename_i a ha
      exact hp t a ha h
    · exact hq h

theorem yields_tryToken {P : β → Prop} {f : τ → Option α} {p : α → TokenReader ε τ β}
    {q : TokenReader ε τ β} (hp : ∀ a, Yields (p a) P) (hq : Yields q P) :
    Yields (tryToken f p q) P :=
  yields_tryToken_of (fun _ a _ => hp a) hq

theorem yields_ifNext [DecidableEq τ] {P : β → Prop} {t : τ} {p q : TokenReader ε τ β}
    (hp : Yields p P) (hq : Yields q P) : Yields (ifNext t p q) P :=
  yields_tryToken (fun _ => hp) hq

/-! ## Nothing is put back -/

/-- What is left is no more than there was. -/
def Shrinks (p : TokenReader ε τ α) : Prop :=
  ∀ ⦃ts a rest⦄, p ts = .ok (a, rest) → rest.length ≤ ts.length

/-- At least one token is taken. -/
def Progresses (p : TokenReader ε τ α) : Prop :=
  ∀ ⦃ts a rest⦄, p ts = .ok (a, rest) → rest.length < ts.length

theorem Progresses.shrinks {p : TokenReader ε τ α} (h : Progresses p) : Shrinks p :=
  fun _ _ _ hp => (h hp).le

theorem shrinks_pure (a : α) : Shrinks (pure a : TokenReader ε τ α) := by
  intro ts b rest h
  cases h
  exact le_rfl

theorem shrinks_fail (e : ε) : Shrinks (fail e : TokenReader ε τ α) := by
  intro ts a rest h
  cases h

theorem Shrinks.bind {p : TokenReader ε τ α} {f : α → TokenReader ε τ β} (hp : Shrinks p)
    (hf : ∀ a, Shrinks (f a)) : Shrinks (p >>= f) := by
  intro ts b rest h
  obtain ⟨a, mid, ha, hb⟩ := bind_eq_ok_iff.1 h
  exact (hf a hb).trans (hp ha)

/-- A parser that begins by taking a token takes one. -/
theorem Progresses.bind {p : TokenReader ε τ α} {f : α → TokenReader ε τ β} (hp : Progresses p)
    (hf : ∀ a, Shrinks (f a)) : Progresses (p >>= f) := by
  intro ts b rest h
  obtain ⟨a, mid, ha, hb⟩ := bind_eq_ok_iff.1 h
  exact (hf a hb).trans_lt (hp ha)

theorem shrinks_tryToken {f : τ → Option α} {p : α → TokenReader ε τ β} {q : TokenReader ε τ β}
    (hp : ∀ a, Shrinks (p a)) (hq : Shrinks q) : Shrinks (tryToken f p q) := by
  intro ts b rest h
  cases ts with
  | nil => exact hq h
  | cons t ts =>
    rw [tryToken] at h
    split at h
    · exact (hp _ h).trans (Nat.le_succ _)
    · exact hq h

/-- If nothing is parsed without the token, a token is taken. -/
theorem progresses_tryToken {f : τ → Option α} {p : α → TokenReader ε τ β} {q : TokenReader ε τ β}
    (hp : ∀ a, Shrinks (p a)) (hq : Progresses q) : Progresses (tryToken f p q) := by
  intro ts b rest h
  cases ts with
  | nil => exact hq h
  | cons t ts =>
    rw [tryToken] at h
    split at h
    · exact Nat.lt_succ_of_le (hp _ h)
    · exact hq h

theorem progresses_fail (e : ε) : Progresses (fail e : TokenReader ε τ α) := by
  intro ts a rest h
  cases h

theorem progresses_token (f : τ → Option α) (e : ε) : Progresses (token f e) :=
  progresses_tryToken (fun a => shrinks_pure a) (progresses_fail e)

theorem shrinks_ifNext [DecidableEq τ] {t : τ} {p q : TokenReader ε τ β} (hp : Shrinks p)
    (hq : Shrinks q) : Shrinks (ifNext t p q) :=
  shrinks_tryToken (fun _ => hp) hq

theorem progresses_ifNext [DecidableEq τ] {t : τ} {p q : TokenReader ε τ β} (hp : Shrinks p)
    (hq : Progresses q) : Progresses (ifNext t p q) :=
  progresses_tryToken (fun _ => hp) hq

theorem progresses_expect [DecidableEq τ] (t : τ) (e : ε) : Progresses (expect t e) :=
  progresses_ifNext (shrinks_pure ()) (progresses_fail e)

theorem shrinks_whileNext [DecidableEq τ] {t : τ} {step : σ → TokenReader ε τ σ}
    (hstep : ∀ s, Shrinks (step s)) (s : σ) : Shrinks (whileNext t step s) := by
  have hfuel : ∀ fuel s, Shrinks (whileNextFuel t step fuel s) := by
    intro fuel
    induction fuel with
    | zero => exact shrinks_pure
    | succ fuel ih => exact fun s => shrinks_ifNext ((hstep s).bind ih) (shrinks_pure s)
  exact fun ts _ _ h => hfuel ts.length s h

/-! ## Lists of items -/

/-- **All items are parsed**: none at the end, or one and then the rest. -/
theorem all_cons {p : TokenReader ε τ α} {e : ε} (hp : Progresses p) (t : τ) (ts : List τ) :
    all p e (t :: ts) = (p (t :: ts)).bind fun (a, rest) => (all p e rest).map (a :: ·) := by
  have hfuel : ∀ fuel fuel' ts, ts.length ≤ fuel → ts.length ≤ fuel' →
      allFuel p e fuel ts = allFuel p e fuel' ts := by
    intro fuel
    induction fuel with
    | zero =>
      intro fuel' ts h _
      rw [List.length_eq_zero_iff.1 (Nat.le_zero.1 h)]
      rw [allFuel, allFuel]
    | succ fuel ih =>
      intro fuel' ts h h'
      cases ts with
      | nil => rw [allFuel, allFuel]
      | cons t ts =>
        obtain ⟨fuel', rfl⟩ : ∃ n, fuel' = n + 1 :=
          Nat.exists_eq_add_one.2 (by rw [List.length_cons] at h'; omega)
        rw [allFuel, allFuel]
        cases hitem : p (t :: ts) with
        | error e => rfl
        | ok r =>
          have hrest := @hp _ r.1 r.2 hitem
          simp only [Except.bind]
          rw [ih fuel' r.2 (by omega) (by omega)]
  show allFuel p e (ts.length + 1) (t :: ts) = _
  rw [allFuel]
  cases hitem : p (t :: ts) with
  | error e => rfl
  | ok r =>
    have hrest := @hp _ r.1 r.2 hitem
    rw [List.length_cons] at hrest
    simp only [Except.bind]
    rw [all, hfuel ts.length r.2.length r.2 (by omega) le_rfl]

/-- One item more is parsed, or a failure is found in it or behind it. -/
theorem allFuel_cons_eq_ok {p : TokenReader ε τ α} {e : ε} {fuel : ℕ} {t : τ} {ts : List τ}
    {as : List α} (h : allFuel p e (fuel + 1) (t :: ts) = .ok as) : ∃ a rest as',
    p (t :: ts) = .ok (a, rest) ∧ allFuel p e fuel rest = .ok as' ∧ as = a :: as' := by
  rw [allFuel] at h
  cases hitem : p (t :: ts) with
  | error e =>
    rw [hitem] at h
    cases h
  | ok r =>
    rw [hitem] at h
    simp only [Except.bind] at h
    cases hrest : allFuel p e fuel r.2 with
    | error e =>
      rw [hrest] at h
      cases h
    | ok as' =>
      rw [hrest] at h
      exact ⟨r.1, r.2, as', rfl, hrest, (Except.ok.inj h).symm⟩

theorem allFuel_cons_eq_error {p : TokenReader ε τ α} {e e' : ε} {fuel : ℕ} {t : τ} {ts : List τ}
    (h : allFuel p e (fuel + 1) (t :: ts) = .error e') : p (t :: ts) = .error e' ∨
    ∃ a rest, p (t :: ts) = .ok (a, rest) ∧ allFuel p e fuel rest = .error e' := by
  rw [allFuel] at h
  cases hitem : p (t :: ts) with
  | error e =>
    rw [hitem] at h
    exact Or.inl (congrArg _ (Except.error.inj h))
  | ok r =>
    rw [hitem] at h
    simp only [Except.bind] at h
    cases hrest : allFuel p e fuel r.2 with
    | error e =>
      rw [hrest] at h
      exact Or.inr ⟨r.1, r.2, rfl, hrest.trans (congrArg _ (Except.error.inj h))⟩
    | ok as =>
      rw [hrest] at h
      cases h

/-- Every item has what the parser yields. -/
theorem forall_mem_all {p : TokenReader ε τ α} {e : ε} {P : α → Prop} (hp : Yields p P)
    {ts : List τ} {as : List α} (h : all p e ts = .ok as) : ∀ a ∈ as, P a := by
  have hfuel : ∀ fuel ts as, allFuel p e fuel ts = .ok as → ∀ a ∈ as, P a := by
    intro fuel
    induction fuel with
    | zero =>
      intro ts as h
      cases ts with
      | nil =>
        cases h
        simp
      | cons t ts => cases h
    | succ fuel ih =>
      intro ts as h
      cases ts with
      | nil =>
        cases h
        simp
      | cons t ts =>
        obtain ⟨a, rest, as', hitem, hrest, rfl⟩ := allFuel_cons_eq_ok h
        rw [List.forall_mem_cons]
        exact ⟨hp hitem, ih rest as' hrest⟩
  exact hfuel ts.length ts as h

/-! ## Sentences -/

/-- Of `ts` the parser says `d`, and it stops before `rest`. -/
def Says (p : TokenReader ε τ α) (ts : List τ) (d : Except ε α) (rest : List τ) : Prop :=
  p ts = d.map fun a => (a, rest)

theorem says_pure (a : α) (ts : List τ) : Says (pure a : TokenReader ε τ α) ts (.ok a) ts := rfl

theorem says_fail (e : ε) (ts rest : List τ) :
    Says (fail e : TokenReader ε τ α) ts (.error e) rest := rfl

theorem says_ite (c : Prop) [Decidable c] (e : ε) (a : α) (ts : List τ) :
    Says (if c then fail e else pure a : TokenReader ε τ α) ts
      (if c then .error e else .ok a) ts := by
  split
  · exact says_fail e ts ts
  · exact says_pure a ts

theorem Says.bind {p : TokenReader ε τ α} {f : α → TokenReader ε τ β} {ts mid rest : List τ}
    {d : Except ε α} {d' : α → Except ε β} (hp : Says p ts d mid)
    (hf : ∀ a, Says (f a) mid (d' a) rest) : Says (p >>= f) ts (d >>= d') rest := by
  show (match p ts with | .error e => _ | .ok (a, mid) => _) = _
  rw [hp]
  cases d with
  | error e => rfl
  | ok a => exact hf a

theorem Says.bind_error {p : TokenReader ε τ α} {f : α → TokenReader ε τ β} {ts mid : List τ}
    {e : ε} (hp : Says p ts (.error e) mid) (rest : List τ) :
    Says (p >>= f) ts (.error e) rest := by
  show (match p ts with | .error e => _ | .ok (a, mid) => _) = _
  rw [hp]
  rfl

theorem Says.bind_ok {p : TokenReader ε τ α} {f : α → TokenReader ε τ β} {ts mid rest : List τ}
    {a : α} {d : Except ε β} (hp : Says p ts (.ok a) mid) (hf : Says (f a) mid d rest) :
    Says (p >>= f) ts d rest := by
  show (match p ts with | .error e => _ | .ok (a, mid) => _) = _
  rw [hp]
  exact hf

section

variable {f : τ → Option α} {p : α → TokenReader ε τ β} {q : TokenReader ε τ β}
  {ts rest : List τ} {d : Except ε β}

theorem says_tryToken {t : τ} {a : α} (ht : f t = some a) (h : Says (p a) ts d rest) :
    Says (tryToken f p q) (t :: ts) d rest := by
  rw [Says, tryToken, ht]
  exact h

theorem says_tryToken_of_none (hts : ∀ t ∈ ts.head?, f t = none) (h : Says q ts d rest) :
    Says (tryToken f p q) ts d rest := by
  cases ts with
  | nil => exact h
  | cons t ts =>
    rw [Says, tryToken, hts t rfl]
    exact h

theorem tryToken_eq_ok {b : β} (h : tryToken f p q ts = .ok (b, rest)) :
    (∃ t ts' a, ts = t :: ts' ∧ f t = some a ∧ p a ts' = .ok (b, rest)) ∨
      q ts = .ok (b, rest) := by
  cases ts with
  | nil => exact Or.inr h
  | cons t ts =>
    rw [tryToken] at h
    split at h
    · rename_i a ha
      exact Or.inl ⟨t, ts, a, rfl, ha, h⟩
    · exact Or.inr h

end

theorem says_token {f : τ → Option α} {e : ε} {t : τ} {a : α} (ht : f t = some a)
    (ts : List τ) : Says (token f e) (t :: ts) (.ok a) ts :=
  says_tryToken ht (says_pure a ts)

theorem token_eq_ok {f : τ → Option α} {e : ε} {ts rest : List τ} {a : α}
    (h : token f e ts = .ok (a, rest)) : ∃ t, ts = t :: rest ∧ f t = some a := by
  rcases tryToken_eq_ok h with ⟨t, ts', b, rfl, hb, h⟩ | h
  · cases h
    exact ⟨t, rfl, hb⟩
  · cases h

section

variable [DecidableEq τ] {t : τ} {p q : TokenReader ε τ β} {ts rest : List τ} {d : Except ε β}

theorem ifNext_cons_self (ts : List τ) : ifNext t p q (t :: ts) = p ts := by
  simp only [ifNext, tryToken, if_pos]

theorem ifNext_of_ne (hts : ts.head? ≠ some t) : ifNext t p q ts = q ts := by
  cases ts with
  | nil => rfl
  | cons x ts =>
    have hx : ¬ x = t := fun h => hts (congrArg some h)
    simp only [ifNext, tryToken, if_neg hx]

theorem says_ifNext (h : Says p ts d rest) : Says (ifNext t p q) (t :: ts) d rest :=
  (ifNext_cons_self ts).trans h

theorem says_ifNext_of_ne (hts : ts.head? ≠ some t) (h : Says q ts d rest) :
    Says (ifNext t p q) ts d rest :=
  (ifNext_of_ne hts).trans h

theorem ifNext_eq_ok {b : β} (h : ifNext t p q ts = .ok (b, rest)) :
    (∃ ts', ts = t :: ts' ∧ p ts' = .ok (b, rest)) ∨ q ts = .ok (b, rest) := by
  rcases tryToken_eq_ok h with ⟨x, ts', _, rfl, hx, h⟩ | h
  · split at hx
    · rename_i heq
      exact Or.inl ⟨ts', by rw [heq], h⟩
    · cases hx
  · exact Or.inr h

theorem says_expect (t : τ) (e : ε) (ts : List τ) : Says (expect t e) (t :: ts) (.ok ()) ts :=
  says_ifNext (says_pure () ts)

theorem expect_eq_ok {e : ε} {u : Unit} (h : expect t e ts = .ok (u, rest)) : ts = t :: rest := by
  rcases ifNext_eq_ok h with ⟨ts', rfl, htaken⟩ | hfail
  · cases htaken
    rfl
  · cases hfail

end

section

variable [DecidableEq τ] {t : τ} {step : σ → TokenReader ε τ σ}

/-- More fuel than there are tokens makes no difference. -/
theorem whileNextFuel_eq (hstep : ∀ s, Shrinks (step s)) {fuel fuel' : ℕ} {ts : List τ}
    (h : ts.length ≤ fuel) (h' : ts.length ≤ fuel') (s : σ) :
    whileNextFuel t step fuel s ts = whileNextFuel t step fuel' s ts := by
  induction fuel generalizing fuel' ts s with
  | zero =>
    rw [List.length_eq_zero_iff.1 (Nat.le_zero.1 h)]
    cases fuel' <;> rfl
  | succ fuel ih =>
    cases ts with
    | nil => cases fuel' <;> rfl
    | cons x ts =>
      obtain ⟨fuel', rfl⟩ : ∃ n, fuel' = n + 1 :=
        Nat.exists_eq_add_one.2 (by rw [List.length_cons] at h'; omega)
      rw [List.length_cons] at h h'
      rw [whileNextFuel, whileNextFuel]
      by_cases hx : x = t
      · rw [hx, ifNext_cons_self, ifNext_cons_self]
        show (match step s ts with | .error e => _ | .ok (a, mid) => _) =
          (match step s ts with | .error e => _ | .ok (a, mid) => _)
        cases hs : step s ts with
        | error e => rfl
        | ok r =>
          have hrest := hstep s hs
          exact ih (by omega) (by omega) r.1
      · have hhead : (x :: ts).head? ≠ some t := fun h => hx (Option.some.inj h)
        rw [ifNext_of_ne hhead, ifNext_of_ne hhead]

theorem whileNext_cons (hstep : ∀ s, Shrinks (step s)) (s : σ) (ts : List τ) :
    whileNext t step s (t :: ts) = (step s >>= whileNext t step) ts := by
  rw [whileNext, List.length_cons, whileNextFuel, ifNext_cons_self]
  show (match step s ts with | .error e => _ | .ok (a, mid) => _) =
    (match step s ts with | .error e => _ | .ok (a, mid) => _)
  cases hs : step s ts with
  | error e => rfl
  | ok r => exact whileNextFuel_eq hstep (hstep s hs) le_rfl r.1

theorem whileNext_of_ne {ts : List τ} (hts : ts.head? ≠ some t) (s : σ) :
    whileNext t step s ts = .ok (s, ts) := by
  cases ts with
  | nil => rfl
  | cons x ts =>
    rw [whileNext, List.length_cons, whileNextFuel, ifNext_of_ne hts]
    rfl

/-- **A loop** over what each step says. -/
theorem says_whileNext (hstep : ∀ s, Shrinks (step s)) {items : List α} {lex : α → List τ}
    {d : σ → α → Except ε σ}
    (hitem : ∀ s, ∀ a ∈ items, ∀ rest, Says (step s) (lex a ++ rest) (d s a) rest)
    {rest : List τ} (hrest : rest.head? ≠ some t) (s : σ) :
    Says (whileNext t step s) ((items.flatMap fun a => t :: lex a) ++ rest) (items.foldlM d s)
      rest := by
  induction items generalizing s with
  | nil => exact whileNext_of_ne hrest s
  | cons a items ih =>
    have hcons : ((a :: items).flatMap fun a => t :: lex a) ++ rest =
        t :: (lex a ++ ((items.flatMap fun a => t :: lex a) ++ rest)) := by
      simp
    rw [Says, hcons, whileNext_cons hstep, List.foldlM_cons]
    exact (hitem s a List.mem_cons_self _).bind fun s' =>
      ih (fun s b hb => hitem s b (List.mem_cons_of_mem a hb)) s'

end

/-- A part that may be left out. -/
theorem says_optional [DecidableEq τ] {δ : Type} {t : τ} {p : TokenReader ε τ β}
    {lex : δ → List τ} {d : δ → Except ε β} {rest : List τ} (b : β)
    (hp : ∀ x, Says p (lex x ++ rest) (d x) rest) (hrest : rest.head? ≠ some t) (o : Option δ) :
    Says (ifNext t p (pure b)) ((o.elim [] fun x => t :: lex x) ++ rest) (o.elim (.ok b) d)
      rest := by
  cases o with
  | none => exact says_ifNext_of_ne hrest (says_pure b rest)
  | some x => exact says_ifNext (hp x)

/-- **Items one after the other**: what a parser of a list says of them, and then of the rest. -/
theorem all_flatMap_append {p : TokenReader ε τ β} {e : ε} (hp : Progresses p) {items : List α}
    {lex : α → List τ} {d : α → Except ε β} (ts : List τ) (hlex : ∀ a ∈ items, lex a ≠ [])
    (hitem : ∀ pre a post, items = pre ++ a :: post →
      Says p (lex a ++ (post.flatMap lex ++ ts)) (d a) (post.flatMap lex ++ ts)) :
    all p e (items.flatMap lex ++ ts) =
      items.mapM d >>= fun bs => (all p e ts).map (bs ++ ·) := by
  induction items with
  | nil =>
    rw [List.mapM_nil]
    show _ = (all p e ts).map ([] ++ ·)
    cases hts : all p e ts <;> rw [List.flatMap_nil, List.nil_append, hts] <;> rfl
  | cons a items ih =>
    obtain ⟨t, ts', ht⟩ := List.exists_cons_of_ne_nil (hlex a List.mem_cons_self)
    have hsays := hitem [] a items rfl
    have hrest := ih (fun b hb => hlex b (List.mem_cons_of_mem a hb)) fun pre b post hitems =>
      hitem (a :: pre) b post (by rw [hitems, List.cons_append])
    rw [ht] at hsays
    rw [List.flatMap_cons, List.append_assoc, ht, List.cons_append, all_cons hp,
      ← List.cons_append, hsays, List.mapM_cons]
    cases d a with
    | error e => rfl
    | ok b =>
      show (all p e (items.flatMap lex ++ ts)).map (b :: ·) = _
      rw [hrest]
      cases items.mapM d with
      | error e => rfl
      | ok bs =>
        show ((all p e ts).map (bs ++ ·)).map (b :: ·) = (all p e ts).map (b :: bs ++ ·)
        cases all p e ts <;> rfl

theorem all_flatMap {p : TokenReader ε τ β} {e : ε} (hp : Progresses p) {items : List α}
    {lex : α → List τ} {d : α → Except ε β} (hlex : ∀ a ∈ items, lex a ≠ [])
    (hitem : ∀ pre a post, items = pre ++ a :: post →
      Says p (lex a ++ post.flatMap lex) (d a) (post.flatMap lex)) :
    all p e (items.flatMap lex) = items.mapM d := by
  have h := all_flatMap_append (e := e) hp [] hlex (by simpa using hitem)
  rw [List.append_nil] at h
  rw [h]
  cases items.mapM d with
  | error e => rfl
  | ok bs => exact congrArg Except.ok (List.append_nil bs)

/-! ## Sentences read back -/

section

variable {κ δ : Type} {m : κ → τ}

/-- Of pieces with the tokens `m`, the parser takes nothing but sentences, and it parses what `d`
says of them. -/
def Reads (m : κ → τ) (p : TokenReader ε τ α) (lex : δ → List κ) (d : δ → Except ε α) : Prop :=
  ∀ ⦃ls a rest⦄, p (ls.map m) = .ok (a, rest) →
    ∃ x ls', ls = lex x ++ ls' ∧ rest = ls'.map m ∧ d x = .ok a

theorem reads_token {f : τ → Option α} {e : ε} {lex : δ → κ} {d : δ → Except ε α}
    (hf : ∀ l a, f (m l) = some a → ∃ x, l = lex x ∧ d x = .ok a) :
    Reads m (token f e) (fun x => [lex x]) d := by
  intro ls a rest h
  obtain ⟨t, hts, ha⟩ := token_eq_ok h
  obtain ⟨l, ls', rfl, rfl, rfl⟩ := List.map_eq_cons_iff.1 hts
  obtain ⟨x, rfl, hd⟩ := hf l a ha
  exact ⟨x, ls', rfl, rfl, hd⟩

variable [DecidableEq τ] {t : τ} {k : κ}

theorem expect_map_eq_ok (hk : ∀ l, m l = t → l = k) {e : ε} {u : Unit} {ls : List κ}
    {rest : List τ} (h : expect t e (ls.map m) = .ok (u, rest)) :
    ∃ ls', ls = k :: ls' ∧ rest = ls'.map m := by
  obtain ⟨l, ls', rfl, hl, rfl⟩ := List.map_eq_cons_iff.1 (expect_eq_ok h)
  exact ⟨ls', by rw [hk l hl], rfl⟩

theorem ifNext_map_eq_ok (hk : ∀ l, m l = t → l = k) {p q : TokenReader ε τ β} {ls : List κ}
    {rest : List τ} {b : β} (h : ifNext t p q (ls.map m) = .ok (b, rest)) :
    (∃ ls', ls = k :: ls' ∧ p (ls'.map m) = .ok (b, rest)) ∨ q (ls.map m) = .ok (b, rest) := by
  rcases ifNext_eq_ok h with ⟨ts', hts, hp⟩ | hq
  · obtain ⟨l, ls', rfl, hl, rfl⟩ := List.map_eq_cons_iff.1 hts
    exact Or.inl ⟨ls', by rw [hk l hl], hp⟩
  · exact Or.inr hq

theorem reads_optional (hk : ∀ l, m l = t → l = k) {p : TokenReader ε τ β} {lex : δ → List κ}
    {d : δ → Except ε β} (hp : Reads m p lex d) (b : β) :
    Reads m (ifNext t p (pure b)) (fun o : Option δ => o.elim [] fun x => k :: lex x)
      fun o => o.elim (.ok b) d := by
  intro ls a rest h
  rcases ifNext_map_eq_ok hk h with ⟨ls', rfl, hsome⟩ | hnone
  · obtain ⟨x, ls'', rfl, hrest, hd⟩ := hp hsome
    exact ⟨some x, ls'', rfl, hrest, hd⟩
  · cases hnone
    exact ⟨none, ls, rfl, rfl, rfl⟩

theorem reads_whileNext (hk : ∀ l, m l = t → l = k) {step : σ → TokenReader ε τ σ}
    {lex : δ → List κ} {d : σ → δ → Except ε σ} (hstep : ∀ s, Reads m (step s) lex (d s)) (s : σ) :
    Reads m (whileNext t step s) (fun items : List δ => items.flatMap fun x => k :: lex x)
      fun items : List δ => items.foldlM d s := by
  have hfuel : ∀ fuel s, Reads m (whileNextFuel t step fuel s)
      (fun items : List δ => items.flatMap fun x => k :: lex x)
      fun items : List δ => items.foldlM d s := by
    intro fuel
    induction fuel with
    | zero =>
      intro s ls a rest h
      cases h
      exact ⟨[], ls, rfl, rfl, rfl⟩
    | succ fuel ih =>
      intro s ls a rest h
      rcases ifNext_map_eq_ok hk h with ⟨ls', rfl, hmore⟩ | hend
      · obtain ⟨s', mid, hs', hrest⟩ := bind_eq_ok_iff.1 hmore
        obtain ⟨x, ls'', rfl, rfl, hd⟩ := hstep s hs'
        obtain ⟨items, ls''', rfl, hrest, hitems⟩ := ih s' hrest
        refine ⟨x :: items, ls''', by simp, hrest, ?_⟩
        have hcons : (x :: items).foldlM d s = (d s x >>= fun s => items.foldlM d s) :=
          List.foldlM_cons
        rw [hd] at hcons
        exact hcons.trans hitems
      · cases hend
        exact ⟨[], ls, rfl, rfl, rfl⟩
  exact fun ls _ _ h => hfuel _ s h

omit [DecidableEq τ] in
/-- What a parser of a list takes are items one after the other. -/
theorem all_map_eq_ok {p : TokenReader ε τ α} {e : ε} {lex : δ → List κ} {d : δ → Except ε α}
    (hp : Reads m p lex d) {ls : List κ} {as : List α} (h : all p e (ls.map m) = .ok as) :
    ∃ items : List δ, ls = items.flatMap lex ∧ items.mapM d = .ok as := by
  have hfuel : ∀ fuel ls as, allFuel p e fuel (ls.map m) = .ok as →
      ∃ items : List δ, ls = items.flatMap lex ∧ items.mapM d = .ok as := by
    intro fuel
    induction fuel with
    | zero =>
      intro ls as h
      cases ls with
      | nil =>
        cases h
        exact ⟨[], rfl, rfl⟩
      | cons l ls => cases h
    | succ fuel ih =>
      intro ls as h
      cases ls with
      | nil =>
        cases h
        exact ⟨[], rfl, rfl⟩
      | cons l ls =>
        obtain ⟨a, rest, as', hitem, hrest, rfl⟩ := allFuel_cons_eq_ok h
        obtain ⟨x, ls', hls, rfl, hd⟩ := @hp (l :: ls) a rest hitem
        obtain ⟨items, rfl, hitems⟩ := ih ls' as' hrest
        refine ⟨x :: items, by rw [hls, List.flatMap_cons], ?_⟩
        rw [List.mapM_cons, hd, hitems]
        rfl
  exact hfuel _ ls as h

end

/-! ## Failures -/

/-- A list fails with a failure of its items at the first that has it. -/
theorem all_map_eq_error {κ δ : Type} {m : κ → τ} {p : TokenReader ε τ α} {e e' : ε}
    {lex : δ → List κ} {d : δ → Except ε α} (hp : Reads m p lex d) (he : e' ≠ e) {ls : List κ}
    (h : all p e (ls.map m) = .error e') :
    ∃ (items : List δ) (ls' : List κ) (as : List α), ls = items.flatMap lex ++ ls' ∧
      items.mapM d = .ok as ∧ p (ls'.map m) = .error e' := by
  have hfuel : ∀ fuel ls, allFuel p e fuel (ls.map m) = .error e' →
      ∃ (items : List δ) (ls' : List κ) (as : List α), ls = items.flatMap lex ++ ls' ∧
        items.mapM d = .ok as ∧ p (ls'.map m) = .error e' := by
    intro fuel
    induction fuel with
    | zero =>
      intro ls h
      cases ls with
      | nil => cases h
      | cons l ls => exact absurd (Except.error.inj h).symm he
    | succ fuel ih =>
      intro ls h
      cases ls with
      | nil => cases h
      | cons l ls =>
        rcases allFuel_cons_eq_error h with hitem | ⟨a, rest, hitem, hrest⟩
        · exact ⟨[], l :: ls, [], rfl, rfl, hitem⟩
        · obtain ⟨x, ls', hls, rfl, hd⟩ := @hp (l :: ls) a rest hitem
          obtain ⟨items, ls'', as, rfl, hitems, hlast⟩ := ih ls' hrest
          refine ⟨x :: items, ls'', a :: as, ?_, ?_, hlast⟩
          · rw [hls, List.flatMap_cons, List.append_assoc]
          · rw [List.mapM_cons, hd, hitems]
            rfl
  exact hfuel _ ls h

/-- The parser does not fail with `e`. -/
def NeverFails (e : ε) (p : TokenReader ε τ α) : Prop := ∀ ts, p ts ≠ .error e

theorem bind_eq_error {p : TokenReader ε τ α} {f : α → TokenReader ε τ β} {ts : List τ} {e : ε}
    (h : (p >>= f) ts = .error e) :
    p ts = .error e ∨ ∃ a mid, p ts = .ok (a, mid) ∧ f a mid = .error e := by
  have hbind : (match p ts with | .error e => Except.error e | .ok (a, mid) => f a mid) =
      .error e := h
  cases hp : p ts with
  | error e' =>
    rw [hp] at hbind
    exact Or.inl (congrArg Except.error (Except.error.inj hbind))
  | ok r =>
    rw [hp] at hbind
    exact Or.inr ⟨r.1, r.2, rfl, hbind⟩

theorem tryToken_eq_error {f : τ → Option α} {p : α → TokenReader ε τ β} {q : TokenReader ε τ β}
    {ts : List τ} {e : ε} (h : tryToken f p q ts = .error e) :
    (∃ t ts' a, ts = t :: ts' ∧ f t = some a ∧ p a ts' = .error e) ∨ q ts = .error e := by
  cases ts with
  | nil => exact Or.inr h
  | cons t ts =>
    rw [tryToken] at h
    split at h
    · rename_i a ha
      exact Or.inl ⟨t, ts, a, rfl, ha, h⟩
    · exact Or.inr h

theorem ifNext_map_eq_error {κ : Type} {m : κ → τ} [DecidableEq τ] {t : τ} {k : κ}
    (hk : ∀ l, m l = t → l = k) {p q : TokenReader ε τ β} {ls : List κ} {e : ε}
    (h : ifNext t p q (ls.map m) = .error e) :
    (∃ ls', ls = k :: ls' ∧ p (ls'.map m) = .error e) ∨ q (ls.map m) = .error e := by
  rcases tryToken_eq_error h with ⟨x, ts', _, hts, hx, hp⟩ | hq
  · obtain ⟨l, ls', rfl, rfl, rfl⟩ := List.map_eq_cons_iff.1 hts
    split at hx
    · rename_i heq
      exact Or.inl ⟨ls', by rw [hk l heq], hp⟩
    · cases hx
  · exact Or.inr hq

theorem neverFails_pure (e : ε) (a : α) : NeverFails e (pure a : TokenReader ε τ α) := by
  intro ts h
  cases h

theorem neverFails_fail {e e' : ε} (h : e' ≠ e) : NeverFails e (fail e' : TokenReader ε τ α) := by
  intro ts hfail
  exact h (Except.error.inj hfail)

theorem NeverFails.bind {e : ε} {p : TokenReader ε τ α} {f : α → TokenReader ε τ β}
    (hp : NeverFails e p) (hf : ∀ a, NeverFails e (f a)) : NeverFails e (p >>= f) := by
  intro ts h
  rcases bind_eq_error h with hp' | ⟨a, mid, -, hf'⟩
  · exact hp ts hp'
  · exact hf a mid hf'

theorem neverFails_tryToken {e : ε} {f : τ → Option α} {p : α → TokenReader ε τ β}
    {q : TokenReader ε τ β} (hp : ∀ a, NeverFails e (p a)) (hq : NeverFails e q) :
    NeverFails e (tryToken f p q) := by
  intro ts
  cases ts with
  | nil => exact hq []
  | cons t ts =>
    rw [tryToken]
    split
    · exact hp _ ts
    · exact hq (t :: ts)

theorem neverFails_ifNext [DecidableEq τ] {e : ε} {t : τ} {p q : TokenReader ε τ β}
    (hp : NeverFails e p) (hq : NeverFails e q) : NeverFails e (ifNext t p q) :=
  neverFails_tryToken (fun _ => hp) hq

theorem neverFails_whileNext [DecidableEq τ] {e : ε} {t : τ} {step : σ → TokenReader ε τ σ}
    (hstep : ∀ s, NeverFails e (step s)) (s : σ) : NeverFails e (whileNext t step s) := by
  have hfuel : ∀ fuel s, NeverFails e (whileNextFuel t step fuel s) := by
    intro fuel
    induction fuel with
    | zero => exact neverFails_pure e
    | succ fuel ih => exact fun s => neverFails_ifNext ((hstep s).bind ih) (neverFails_pure e s)
  exact fun ts => hfuel ts.length s ts

end TokenReader

end Sweetspot
