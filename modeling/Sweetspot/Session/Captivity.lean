import Sweetspot.Session.System

/-!
# Captivity

A captured session is to have the filter named by its `dn_filter_name`, or the one for strangers.
`sw_session_stop` sets the state and the name before it looks the filter up, so a stop with a filter
that is not loaded leaves a captured session with the filter of its release.

* `Captive`: what the filter of a captured session should be.
* `KnownStop`: the stops that name no filter, or a loaded one.
* `captivity_iff`: captured sessions are captive all along a run exactly if all its stops are known.
-/

namespace Sweetspot

open Controller

/-- The session has the loaded filter that its `dn_filter_name` names, or the one for strangers. -/
def Captive (cfg : Config) (e : SessionEntry) : Prop :=
  ∃ filterId f, e.filterId = some filterId ∧ cfg.filters filterId = some f ∧
    f.name = e.dnFilterName.getD cfg.filterAnonymous ∧
      filterGetId cfg.filters (e.dnFilterName.getD cfg.filterAnonymous) = some filterId

/-- Every captured session is captive. -/
def Captivity (cfg : Config) (s : Controller) : Prop :=
  ∀ e ∈ s.sessions, e.state = .captured → Captive cfg e

/-- A stop that finds or opens a session and names a filter names a loaded one. -/
def KnownStop (cfg : Config) (s : Controller) (ev : Event) : Prop :=
  ∀ ip filterName, ev.op.ip = some ip → call s ev = .stop (some filterName) → filterName ≠ "" →
    (sessionNew cfg ev.now s ip).2.isSome → (filterGetId cfg.filters filterName).isSome

/-! ## The invariant -/

/-- The filter the session goes back to is loaded, and a captured session has it. -/
def Tethered (cfg : Config) (st : Standing) : Prop :=
  ∃ filterId, filterGetId cfg.filters (st.dnFilterName.getD cfg.filterAnonymous) = some filterId ∧
    (st.state = .captured → st.filterId = some filterId)

def AllTethered (cfg : Config) (b : Books) : Prop :=
  ∀ ip st, b.standing ip = some st → Tethered cfg st

section Invariant

variable {cfg : Config} {ip : UInt32} {b b' : Books} {call : SessionCall}

/-- A tethered session that is captured is captive. -/
theorem captive_of_tethered {e : SessionEntry} (h : Tethered cfg e.standing)
    (hstate : e.state = .captured) : Captive cfg e := by
  obtain ⟨filterId, hfilter, hcaptured⟩ := h
  obtain ⟨f, hf, hname⟩ := filterGetId_eq_some hfilter
  exact ⟨filterId, f, hcaptured hstate, hf, hname, hfilter⟩

theorem captivity_of_allTethered {s : Controller} (h : AllTethered cfg s.books) :
    Captivity cfg s := by
  intro e he hstate
  rw [mem_iff_retrieve] at he
  exact captive_of_tethered (h e.ip e.standing (books_standing he)) hstate

theorem allTethered_opening (hopen : Opening cfg ip b b') (h : AllTethered cfg b) :
    AllTethered cfg b' := by
  cases hopen with
  | kept => exact h
  | @opened filterId hnone hfilter =>
    apply Books.forall_set h
    rintro st ⟨⟩
    exact ⟨filterId, hfilter, fun _ => rfl⟩

/-- The filter a known stop asks for is loaded. -/
theorem stopFilterName_known {st : Standing} {filterName : Option String}
    (hanon : (filterGetId cfg.filters cfg.filterAnonymous).isSome)
    (hknown : ∀ name, filterName = some name → name ≠ "" → (filterGetId cfg.filters name).isSome)
    (hst : Tethered cfg st) :
    ∃ filterId, filterGetId cfg.filters (stopFilterName cfg filterName st.dnFilterName).1 =
      some filterId := by
  rw [← Option.isSome_iff_exists]
  cases filterName with
  | some name =>
    by_cases hname : name = ""
    · simpa [stopFilterName, hname] using hanon
    · simpa [stopFilterName, hname] using hknown name rfl hname
  | none =>
    obtain ⟨filterId, hfilter, -⟩ := hst
    have hfst : (stopFilterName cfg none st.dnFilterName).1 =
        st.dnFilterName.getD cfg.filterAnonymous := by
      cases st.dnFilterName <;> rfl
    rw [hfst, hfilter, Option.isSome_some]

/-- What a known stop leaves is tethered. -/
theorem tethered_stopped {st : Standing} {filterName : Option String} {filterId : FilterSlot}
    {sessionId : UInt32}
    (hfilter : filterGetId cfg.filters (stopFilterName cfg filterName st.dnFilterName).1 =
      some filterId) :
    Tethered cfg ⟨.captured, sessionId, (stopFilterName cfg filterName st.dnFilterName).2,
      some filterId⟩ :=
  ⟨filterId, by rw [← stopFilterName_fst, hfilter], fun _ => rfl⟩

/-- **Step lemma.** Calls whose stops are known keep the sessions tethered. -/
theorem allTethered_acting (hanon : (filterGetId cfg.filters cfg.filterAnonymous).isSome)
    (hact : Acting cfg ip b call b')
    (hknown : ∀ name, call = .stop (some name) → name ≠ "" → (b.standing ip).isSome →
      (filterGetId cfg.filters name).isSome)
    (h : AllTethered cfg b) : AllTethered cfg b' := by
  cases hact with
  | nothing | lookup | refused | unknown | spared => exact h
  | again hst hstate hfilter =>
    apply Books.forall_set h
    rintro st' ⟨⟩
    obtain ⟨filterId, hfilter', -⟩ := h ip _ hst
    exact ⟨filterId, hfilter', fun hcaptured => by simp [hstate] at hcaptured⟩
  | released hst hstate hfilter hr htype =>
    apply Books.forall_set h
    rintro st' ⟨⟩
    obtain ⟨filterId, hfilter', -⟩ := h ip _ hst
    exact ⟨filterId, hfilter', fun hcaptured => by simp at hcaptured⟩
  | @captive filterName st hst hstate =>
    obtain ⟨filterId, hfilter⟩ := @stopFilterName_known cfg st filterName hanon
      (by rintro name rfl hne; exact hknown name rfl hne (by simp [hst])) (h ip st hst)
    apply Books.forall_set h
    rintro st' ⟨⟩
    rw [hfilter, Option.map_some, Option.getD_some, hstate]
    exact tethered_stopped hfilter
  | recaptured hst hstate hfilter hr htype =>
    apply Books.forall_set h
    rintro st' ⟨⟩
    exact tethered_stopped hfilter
  | @silenced filterName st hst hstate hfilter =>
    obtain ⟨filterId, hfilter'⟩ := @stopFilterName_known cfg st filterName hanon
      (by rintro name rfl hne; exact hknown name rfl hne (by simp [hst])) (h ip st hst)
    rw [hfilter'] at hfilter
    cases hfilter
  | closed hst hstate =>
    apply Books.forall_set h
    rintro st' ⟨⟩
  | interim hst hstate hr htype => exact h

/-- A stop with a filter of its own leaves a captured session that asks for it. -/
theorem standing_of_stop {name : String} (hact : Acting cfg ip b (.stop (some name)) b')
    (hname : name ≠ "") (hthere : (b.standing ip).isSome) :
    ∃ st, b'.standing ip = some st ∧ st.state = .captured ∧ st.dnFilterName = some name := by
  have hdn : ∀ dn, (stopFilterName cfg (some name) dn).2 = some name := by
    intro dn
    simp [stopFilterName, hname]
  cases hact with
  | refused hnone => simp [hnone] at hthere
  | captive hst hstate => exact ⟨_, Books.set_standing_self .., hstate, hdn _⟩
  | recaptured hst hstate hfilter hr htype => exact ⟨_, Books.set_standing_self .., rfl, hdn _⟩
  | silenced hst hstate hfilter => exact ⟨_, Books.set_standing_self .., rfl, hdn _⟩

end Invariant

/-! ## Runs -/

section Runs

variable {cfg : Config} {s s' : Controller} {ev : Event}

theorem allTethered_init : AllTethered cfg init.books := by
  rintro ip st ⟨⟩

theorem allTethered_step (hanon : (filterGetId cfg.filters cfg.filterAnonymous).isSome)
    (hstep : Step cfg (fun _ => True) s ev s') (hknown : KnownStop cfg s ev)
    (h : AllTethered cfg s.books) : AllTethered cfg s'.books := by
  obtain ⟨-, rfl⟩ := hstep
  cases exec_bookStep s ev with
  | commit hop hs' =>
    rw [hs']
    exact h
  | call hip hopen hthere hact =>
    apply allTethered_acting hanon hact ?_ (allTethered_opening hopen h)
    intro name hcall hne hsome
    apply hknown _ name hip hcall hne
    rwa [← hthere name hcall]

/-- A stop after which captured sessions are still captive was known. -/
theorem knownStop_of_captivity (hstep : Step cfg (fun _ => True) s ev s')
    (h : Captivity cfg s') : KnownStop cfg s ev := by
  obtain ⟨-, rfl⟩ := hstep
  intro ip name hip hcall hne hnew
  cases @exec_bookStep cfg s ev with
  | commit hop hs' => simp [call, hop] at hcall
  | @call ip' b hip' hopen hthere hact =>
    obtain rfl : ip = ip' := Option.some.inj (hip.symm.trans hip')
    rw [hcall] at hact
    obtain ⟨st, hst, hstate, hdn⟩ := standing_of_stop hact hne (by rwa [hthere name hcall])
    obtain ⟨e, he, rfl⟩ := Option.map_eq_some_iff.1 hst
    have hmem : e ∈ (exec cfg s ev).sessions := by
      rw [mem_iff_retrieve, entry_key he, he]
    obtain ⟨filterId, f, -, -, -, hfilter⟩ := h e hmem hstate
    have hname : e.dnFilterName = some name := hdn
    rw [hname, Option.getD_some] at hfilter
    rw [hfilter, Option.isSome_some]

/-- **Captivity.** If the filter for strangers is loaded, captured sessions have the filter they
should have all along a run exactly if each of its stops that names a filter names a loaded one. -/
theorem captivity_iff (hanon : (filterGetId cfg.filters cfg.filterAnonymous).isSome)
    {evs : List Event} (hrun : Run (Step cfg fun _ => True) init evs s) :
    Run.Always (Step cfg fun _ => True) (Captivity cfg) init evs ↔
      Run.Guarded (Step cfg fun _ => True) (KnownStop cfg) init evs := by
  refine Run.always_iff_guarded (I := fun s => AllTethered cfg s.books) step_det
    (fun s => captivity_of_allTethered) ?_ ?_ hrun allTethered_init
  · intro s ev s' hstep hknown h
    exact allTethered_step hanon hstep hknown h
  · intro s ev s' hstep _ h
    exact knownStop_of_captivity hstep h

/-- The only user is let in and sent back. -/
theorem captivity_iff_oneUser :
    Run.Always (Step oneUserConfig fun _ => True) (Captivity oneUserConfig) init
        [upPaid, downUser] ↔
      Run.Guarded (Step oneUserConfig fun _ => True) (KnownStop oneUserConfig) init
        [upPaid, downUser] :=
  captivity_iff (by decide +kernel) (run_foldl init fun _ _ => trivial)

/-- Sent back to a filter that is not loaded, the user is captured but not captive. -/
theorem captivity_lost :
    ¬ ∀ cfg evs s, (filterGetId cfg.filters cfg.filterAnonymous).isSome →
      Run (Step cfg fun _ => True) init evs s → Captivity cfg s := by
  intro h
  have hcaptivity := h oneUserConfig [upPaid, downLost] _ (by decide +kernel)
    (run_foldl init fun _ _ => trivial)
  have hentry : (([upPaid, downLost].foldl (exec oneUserConfig) init).sessions.retrieve
      0x0a000001).map (fun e => (e.ip, e.state, e.dnFilterName)) =
        some (0x0a000001, .captured, some "lost") := by
    decide +kernel
  obtain ⟨e, he, hfields⟩ := Option.map_eq_some_iff.1 hentry
  simp only [Prod.mk.injEq] at hfields
  obtain ⟨hip, hstate, hdn⟩ := hfields
  obtain ⟨filterId, f, -, -, -, hfilter⟩ := hcaptivity e (by rw [mem_iff_retrieve, hip, he]) hstate
  have hlost : filterGetId oneUserConfig.filters "lost" = none := by decide +kernel
  rw [hdn, Option.getD_some, hlost] at hfilter
  cases hfilter

end Runs

end Sweetspot
