import Sweetspot.Session.Sections

/-!
# A packet and a request for one address

A relay thread asks for the filter of an address that has no session while a UAM thread starts or
stops the session of the same address.  Both may miss it and both insert one; the table keeps the
one that comes last.

* `Race`, `step`: one section of the one thread or of the other.
* `Kept`: in the end there is one session, the request's, as the request has set it.
* `InTime`: the relay thread does not insert a session after the request was applied to one.
* `kept_iff`: the request is kept exactly if the relay thread is in time.
-/

namespace Sweetspot

open Controller

/-- The two threads, each in its call, and what they share. -/
structure Race where
  mem : Shared
  relay : CallPc
  uam : CallPc
  /-- Which session of the address the call of the UAM thread was applied to; nothing reads it. -/
  applied : Option ℕ

/-- Whose section is next, and when. -/
inductive Turn
  | relay (now : ℤ)
  | uam (now : ℤ)

namespace Race

/-- Both threads are about to call. -/
def begin (m : Shared) : Race := ⟨m, .find, .find, none⟩

section Step

variable (cfg : Config) (ip : UInt32) (c : Call)

/-- The section of the thread whose turn it is: of `sw_session_get_filter_id` or of the call `c`. -/
def step (w : Race) : Turn → Race
  | .relay now =>
    let (mem, relay) := Call.getFilterId.advance cfg now w.mem ip w.relay
    { w with mem, relay }
  | .uam now =>
    let (mem, uam) := c.advance cfg now w.mem ip w.uam
    { w with
      mem, uam
      applied := if w.uam.waits && uam.worked then some (mem.made ip) else w.applied }

/-- `step` as a relation. -/
abbrev Step (w : Race) (t : Turn) (w' : Race) : Prop := w' = step cfg ip c w t

/-- The session is as a start or a stop sets a new one. -/
def Reflects (e : SessionEntry) : Call → Prop
  | .start filterName _ sessionContext _ =>
    e.state = .released ∧ startFilterId cfg filterName = some e.filterId ∧
      e.sessionContext = if sessionContext ≠ "" then some sessionContext else none
  | .stop filterName _ sessionContext _ =>
    e.state = .captured ∧
      (filterGetId cfg.filters (stopFilterName cfg filterName none).1).map some =
        some e.filterId ∧
      e.sessionContext = if sessionContext ≠ "" then some sessionContext else none
  | .status | .getFilterId => True

/-- There is exactly one session of the address, it is as the call has set it, and the call was
applied to it. -/
def Kept (w : Race) : Prop :=
  ∃ e, (∀ e', (e' ∈ w.mem.ctl.sessions ∧ e'.ip = ip) ↔ e' = e) ∧ Reflects cfg e c ∧
    w.applied = some (w.mem.made ip)

/-- The relay thread does not insert a session once the call has done its work on one. -/
def InTime (w : Race) : Turn → Prop
  | .relay _ => w.relay = .make → w.uam.worked = false
  | .uam _ => True

end Step

/-! ## The work of the call -/

section Work

variable {cfg : Config} {now : ℤ} {ip : UInt32} {c : Call}

/-- A session that nothing was done to yet. -/
structure Blank (e : SessionEntry) : Prop where
  state : e.state = .captured
  sessionContext : e.sessionContext = none
  dnFilterName : e.dnFilterName = none

/-- A session may be made for the address. -/
def Admitted (cfg : Config) (ip : UInt32) : Prop :=
  checkIp cfg.userNetworks ip ≠ 0 ∧ (filterGetId cfg.filters cfg.filterAnonymous).isSome

theorem work_waits (m : Shared) (e : SessionEntry) (found : Bool) (c : Call) :
    (c.work cfg now m e found).2.waits = false := by
  simp only [Call.work]
  cases c with
  | start filterName interimInterval sessionContext eventContext =>
    have hwork := @startLocked_work cfg now m.ctl e filterName interimInterval sessionContext
    simp only [Call.locked]
    generalize startLocked cfg now m.ctl e filterName interimInterval sessionContext = r at hwork ⊢
    cases hwork with
    | unknown hfilter => rfl
    | set hs hip hstateid hstate hfilter hcontext hpc => exact CallPc.waits_of_worked hpc
  | stop filterName terminationCause sessionContext eventContext =>
    have hwork := @stopLocked_work cfg now m.ctl e found filterName terminationCause sessionContext
    simp only [Call.locked]
    generalize stopLocked cfg now m.ctl e found filterName terminationCause sessionContext = r
      at hwork ⊢
    cases hwork with
    | unknown hs hip hstateid hfilter => rfl
    | set hs hip hstateid hstate hfilter hcontext hpc => exact CallPc.waits_of_worked hpc
  | status => rfl
  | getFilterId => rfl

/-- **The work of a call** on a blank session sets it. -/
theorem work_reflects {m : Shared} {e : SessionEntry} {found : Bool} (hm : m.session ip = some e)
    (he : Blank e) (hworked : (c.work cfg now m e found).2.worked = true) :
    ∃ e', (c.work cfg now m e found).1.session ip = some e' ∧ Reflects cfg e' c := by
  obtain rfl : e.ip = ip := entry_key hm
  simp only [Call.work] at hworked ⊢
  cases c with
  | start filterName interimInterval sessionContext eventContext =>
    have hwork := @startLocked_work cfg now m.ctl e filterName interimInterval sessionContext
    simp only [Call.locked] at hworked ⊢
    generalize startLocked cfg now m.ctl e filterName interimInterval sessionContext = r
      at hwork hworked ⊢
    cases hwork with
    | unknown hfilter => cases hworked
    | @set s' pc e' hs hip hstateid hstate hfilter hcontext hpc =>
      refine ⟨e', (retrieve_put hs hip e.ip).trans (if_pos rfl), hstate, hfilter, ?_⟩
      rw [hcontext, he.sessionContext]
  | stop filterName terminationCause sessionContext eventContext =>
    have hwork := @stopLocked_work cfg now m.ctl e found filterName terminationCause sessionContext
    simp only [Call.locked] at hworked ⊢
    generalize stopLocked cfg now m.ctl e found filterName terminationCause sessionContext = r
      at hwork hworked ⊢
    cases hwork with
    | unknown hs hip hstateid hfilter => cases hworked
    | @set s' pc e' hs hip hstateid hstate hfilter hcontext hpc =>
      refine ⟨e', (retrieve_put hs hip e.ip).trans (if_pos rfl), hstate (Or.inr he.state), ?_, ?_⟩
      · rw [← hfilter, he.dnFilterName]
      · rw [hcontext, he.sessionContext]
  | status => exact ⟨e, hm, trivial⟩
  | getFilterId => exact ⟨e, hm, trivial⟩

/-- A session that was made is blank. -/
theorem make_blank {m m' : Shared} {e : SessionEntry}
    (h : sessionMake cfg now m ip = (m', some e)) :
    Admitted cfg ip ∧ Blank e ∧ m'.session ip = some e := by
  have hmade := @sessionMake_made cfg now m ip
  rw [h] at hmade
  cases hmade with
  | @kept s e filterId hnet hfilter he hs =>
    refine ⟨⟨hnet, by rw [hfilter]; rfl⟩, ?_, (hs ip).trans (if_pos rfl)⟩
    rw [he]
    exact ⟨rfl, rfl, rfl⟩

/-- For an address that sessions may be made for, the insert takes the place of the session that was
there. -/
theorem make_remade {m : Shared} (h : Admitted cfg ip) :
    (sessionMake cfg now m ip).1.made ip = m.made ip + 1 := by
  have hmade := @sessionMake_made cfg now m ip
  generalize sessionMake cfg now m ip = r at hmade
  cases hmade with
  | barred hbarred =>
    rcases hbarred with hnet | hfilter
    · exact absurd hnet h.1
    · have hloaded := h.2
      rw [hfilter] at hloaded
      cases hloaded
  | kept hnet hfilter he hs => exact Function.update_self ..
  | dropped hs => exact Function.update_self ..

end Work

/-! ## The race -/

section Run

variable {cfg : Config} {ip : UInt32} {c : Call}

/-- How far the race has come; `intime` says whether the relay thread was in time so far. -/
inductive Stage (cfg : Config) (ip : UInt32) (c : Call) (intime : Prop) (w : Race) : Prop
  /-- The call has not come to its session; one that is there is blank. -/
  | waiting (hintime : intime) (huam : w.uam.waits = true)
    (hblank : ∀ e, w.mem.session ip = some e → Admitted cfg ip ∧ Blank e)
  /-- The call has failed. -/
  | failed (hintime : intime) (huam : w.uam = .done false)
  /-- The call was applied to the session that is there. -/
  | held (hintime : intime) (huam : w.uam.worked = true) (hadmitted : Admitted cfg ip)
    (happlied : w.applied = some (w.mem.made ip)) {e : SessionEntry}
    (hsession : w.mem.session ip = some e) (hreflects : Reflects cfg e c)
  /-- The session it was applied to has been replaced. -/
  | lost (hlate : ¬ intime) (huam : w.uam.worked = true) (hrelay : ∃ ok, w.relay = .done ok)
    {n : ℕ} (happlied : w.applied = some n) (hmade : n < w.mem.made ip)

theorem stage_begin {m : Shared} {intime : Prop} (hm : m.session ip = none) (hintime : intime) :
    Stage cfg ip c intime (begin m) := by
  refine .waiting hintime rfl ?_
  intro e he
  rw [show (begin m).mem.session ip = none from hm] at he
  cases he

theorem Stage.congr {w : Race} {intime intime' : Prop} (h : intime ↔ intime')
    (hw : Stage cfg ip c intime w) : Stage cfg ip c intime' w :=
  propext h ▸ hw

/-- A section that leaves the address as it is and does not bring the call any further. -/
theorem Stage.idle {w w' : Race} {intime : Prop} (hw : Stage cfg ip c intime w)
    (huam : w'.uam = w.uam ∨ w.uam.worked = true ∧ w'.uam.worked = true)
    (happlied : w'.applied = w.applied) (hsession : w'.mem.session ip = w.mem.session ip)
    (hmade : w'.mem.made = w.mem.made)
    (hrelay : ∀ ok, w.relay = .done ok → w'.relay = .done ok) : Stage cfg ip c intime w' := by
  cases hw with
  | waiting hintime hwaits hblank =>
    have hsame : w'.uam = w.uam := by
      rcases huam with h | ⟨h, -⟩
      · exact h
      · rw [CallPc.worked_of_waits hwaits] at h
        cases h
    exact .waiting hintime (by rw [hsame]; exact hwaits) (by rw [hsession]; exact hblank)
  | failed hintime hfailed =>
    have hsame : w'.uam = w.uam := by
      rcases huam with h | ⟨h, -⟩
      · exact h
      · rw [hfailed] at h
        cases h
    exact .failed hintime (hsame.trans hfailed)
  | held hintime hworked hadmitted hheld hs hreflects =>
    refine .held hintime ?_ hadmitted ?_ (hsession.trans hs) hreflects
    · rcases huam with h | ⟨-, h⟩
      · rwa [h]
      · exact h
    · rw [happlied, hheld, hmade]
  | lost hlate hworked hdone hheld hlt =>
    obtain ⟨ok, hok⟩ := hdone
    refine .lost hlate ?_ ⟨ok, hrelay ok hok⟩ (happlied.trans hheld) (by rwa [hmade])
    rcases huam with h | ⟨-, h⟩
    · rwa [h]
    · exact h

/-- The insert of the relay thread: it is in time and leaves a blank session, if any; or the call
has done its work already, and what it was done to is lost. -/
theorem stage_relay_make {w : Race} {intime : Prop} (now : ℤ) (hw : Stage cfg ip c intime w)
    (hrelay : w.relay = .make) (ok : Bool) :
    Stage cfg ip c (intime ∧ InTime w (.relay now))
      { w with mem := (sessionMake cfg now w.mem ip).1, relay := .done ok } := by
  cases hw with
  | waiting hintime hwaits hblank =>
    refine .waiting ⟨hintime, fun _ => CallPc.worked_of_waits hwaits⟩ hwaits ?_
    intro e he
    have hmade := @sessionMake_made cfg now w.mem ip
    cases hmake : sessionMake cfg now w.mem ip with
    | mk m' made =>
      rw [hmake] at hmade he
      cases hmade with
      | barred hbarred => exact hblank e he
      | kept hnet hfilter hfresh hs =>
        obtain ⟨hadmitted, hmadeBlank, hsession⟩ := make_blank hmake
        obtain rfl : _ = e := Option.some.inj (hsession.symm.trans he)
        exact ⟨hadmitted, hmadeBlank⟩
      | dropped hs =>
        have hnone : (if ip = ip then none else w.mem.session ip) = some e :=
          (hs ip).symm.trans he
        rw [if_pos rfl] at hnone
        cases hnone
  | failed hintime hfailed =>
    exact .failed ⟨hintime, fun _ => by rw [hfailed]; rfl⟩ hfailed
  | held hintime hworked hadmitted happlied hsession hreflects =>
    refine .lost ?_ hworked ⟨ok, rfl⟩ happlied ?_
    · rintro ⟨-, hin⟩
      rw [hin hrelay] at hworked
      cases hworked
    · rw [make_remade hadmitted]
      exact Nat.lt_succ_self _
  | lost hlate hworked hdone happlied hlt =>
    obtain ⟨ok', hok'⟩ := hdone
    rw [hrelay] at hok'
    cases hok'

/-- A section of the relay thread. -/
theorem stage_relay {w : Race} {intime : Prop} (now : ℤ) (hw : Stage cfg ip c intime w) :
    Stage cfg ip c (intime ∧ InTime w (.relay now)) (step cfg ip c w (.relay now)) := by
  by_cases hmake : w.relay = .make
  · have hstep : ∃ ok, step cfg ip c w (.relay now) =
        { w with mem := (sessionMake cfg now w.mem ip).1, relay := .done ok } := by
      simp only [step, hmake, Call.advance]
      rcases sessionMake cfg now w.mem ip with ⟨m', _ | e⟩
      · exact ⟨false, rfl⟩
      · exact ⟨false, rfl⟩
    obtain ⟨ok, hok⟩ := hstep
    rw [hok]
    exact stage_relay_make now hw hmake ok
  · have hintime : intime ↔ intime ∧ InTime w (.relay now) := by
      simp [InTime, hmake]
    refine Stage.congr hintime (hw.idle (Or.inl rfl) rfl ?_ ?_ ?_)
    all_goals
      have hadvance := @advance_advanced cfg now w.mem ip .getFilterId w.relay
      simp only [step]
      generalize Call.getFilterId.advance cfg now w.mem ip w.relay = r at hadvance ⊢
      generalize hpc : w.relay = pc at hadvance hmake
    · cases hadvance <;> first | rfl | exact absurd rfl hmake
    · cases hadvance <;> first | rfl | exact absurd rfl hmake
    · cases hadvance <;> simp

/-- The work of the call, once it has come to a blank session. -/
theorem stage_work {w : Race} {m : Shared} {e : SessionEntry} {intime : Prop} (now : ℤ)
    (found : Bool) (hintime : intime) (hadmitted : Admitted cfg ip) (hm : m.session ip = some e)
    (he : Blank e) :
    Stage cfg ip c intime
      { w with
        mem := (c.work cfg now m e found).1
        uam := (c.work cfg now m e found).2
        applied :=
          if (c.work cfg now m e found).2.worked then some (m.made ip) else w.applied } := by
  cases hworked : (c.work cfg now m e found).2.worked with
  | true =>
    obtain ⟨e', he', hreflects⟩ := work_reflects hm he hworked
    exact .held hintime hworked hadmitted rfl he' hreflects
  | false =>
    refine .failed hintime ?_
    have hwaits := @work_waits cfg now m e found c
    show (c.work cfg now m e found).2 = .done false
    generalize (c.work cfg now m e found).2 = pc at hworked hwaits
    cases pc with
    | find | findAgain | make => cases hwaits
    | submit type => cases hworked
    | done ok =>
      cases ok with
      | false => rfl
      | true => cases hworked

/-- A section of the UAM thread after the work of the call is done. -/
theorem step_worked {w : Race} (now : ℤ) (hworked : w.uam.worked = true) :
    (step cfg ip c w (.uam now)).uam.worked = true ∧
      (step cfg ip c w (.uam now)).applied = w.applied ∧
      (step cfg ip c w (.uam now)).mem.ctl.sessions = w.mem.ctl.sessions ∧
      (step cfg ip c w (.uam now)).mem.made = w.mem.made := by
  simp only [step]
  cases huam : w.uam with
  | find | findAgain | make =>
    rw [huam] at hworked
    cases hworked
  | submit type => exact ⟨rfl, rfl, rfl, rfl⟩
  | done ok =>
    rw [huam] at hworked
    exact ⟨hworked, rfl, rfl, rfl⟩

/-- A section of the UAM thread. -/
theorem stage_uam {w : Race} {intime : Prop} (now : ℤ) (hw : Stage cfg ip c intime w) :
    Stage cfg ip c (intime ∧ InTime w (.uam now)) (step cfg ip c w (.uam now)) := by
  refine Stage.congr (and_iff_left trivial).symm ?_
  by_cases hworked : w.uam.worked = true
  · obtain ⟨huam, happlied, hsessions, hmade⟩ := @step_worked cfg ip c w now hworked
    refine hw.idle (Or.inr ⟨hworked, huam⟩) happlied ?_ hmade fun _ => id
    show (step cfg ip c w (.uam now)).mem.ctl.sessions.retrieve ip = _
    rw [hsessions]
  · have hadvance := @advance_advanced cfg now w.mem ip c w.uam
    simp only [step]
    cases hw with
    | waiting hintime hwaits hblank =>
      rw [hwaits, Bool.true_and]
      generalize c.advance cfg now w.mem ip w.uam = r at hadvance ⊢
      generalize hpc : w.uam = pc at hadvance hwaits
      cases hadvance with
      | missed h => exact .waiting hintime rfl hblank
      | missedAgain h => exact .waiting hintime rfl hblank
      | found h =>
        obtain ⟨hadmitted, he⟩ := hblank _ h
        exact stage_work now true hintime hadmitted h he
      | foundAgain h =>
        obtain ⟨hadmitted, he⟩ := hblank _ h
        exact stage_work now false hintime hadmitted h he
      | made h =>
        obtain ⟨hadmitted, he, hm⟩ := make_blank h
        exact stage_work now false hintime hadmitted hm he
      | refused h => exact .failed hintime rfl
      | submitted type => cases hwaits
      | rest ok => cases hwaits
    | failed hintime hfailed =>
      refine .failed hintime ?_
      rw [hfailed]
      rfl
    | held hintime hworked' => exact absurd hworked' hworked
    | lost hlate hworked' => exact absurd hworked' hworked

/-- A turn has one outcome. -/
theorem step_det (w : Race) (t : Turn) (w₁ w₂ : Race) (h₁ : Step cfg ip c w t w₁)
    (h₂ : Step cfg ip c w t w₂) : w₁ = w₂ :=
  h₁.trans h₂.symm

/-- **Run lemma.** In every run the race is at one of its stages. -/
theorem stage_of_run {m : Shared} (hm : m.session ip = none) {turns : List Turn} {w : Race}
    (hrun : Run (Step cfg ip c) (begin m) turns w) :
    Stage cfg ip c (Run.Guarded (Step cfg ip c) InTime (begin m) turns) w := by
  refine hrun.history
    (P := fun turns w => Stage cfg ip c (Run.Guarded (Step cfg ip c) InTime (begin m) turns) w)
    ?_ ?_
  · exact stage_begin hm (Run.guarded_nil _)
  · rintro turns w t w' hrun ih rfl
    refine Stage.congr (Run.guarded_concat step_det hrun).symm ?_
    cases t with
    | relay now => exact stage_relay now ih
    | uam now => exact stage_uam now ih

/-- **A request is kept exactly if the relay thread is in time.**  A relay thread asks for the
filter of an address without a session, a UAM thread calls for the same address.  Once the call is
done, and unless it has failed, its session is there as the call has set it if and only if the relay
thread has not inserted a session after the call did its work. -/
theorem kept_iff {m : Shared} (hm : m.session ip = none) {turns : List Turn} {w : Race}
    (hrun : Run (Step cfg ip c) (begin m) turns w) {ok : Bool} (huam : w.uam = .done ok) :
    (ok = true → Kept cfg ip c w) ↔ Run.Guarded (Step cfg ip c) InTime (begin m) turns := by
  have hstage := stage_of_run hm hrun
  cases hstage with
  | waiting hintime hwaits hblank =>
    rw [huam] at hwaits
    cases hwaits
  | failed hintime hfailed =>
    refine iff_of_true ?_ hintime
    rintro rfl
    rw [huam] at hfailed
    cases hfailed
  | @held hintime hworked hadmitted happlied e hsession hreflects =>
    refine iff_of_true ?_ hintime
    rintro -
    refine ⟨e, ?_, hreflects, happlied⟩
    intro e'
    constructor
    · rintro ⟨hmem, rfl⟩
      exact Option.some.inj ((mem_iff_retrieve.1 hmem).symm.trans hsession)
    · rintro rfl
      have hip : e'.ip = ip := entry_key hsession
      exact ⟨mem_iff_retrieve.2 (by rw [hip]; exact hsession), hip⟩
  | lost hlate hworked hdone happlied hlt =>
    refine iff_of_false ?_ hlate
    intro hkept
    rw [huam] at hworked
    have hok : ok = true := by
      cases ok with
      | true => rfl
      | false => cases hworked
    obtain ⟨e, -, -, hheld⟩ := hkept hok
    obtain rfl := Option.some.inj (happlied.symm.trans hheld)
    exact absurd hlt (lt_irrefl _)

/-- The only user is let in, and has a packet afterwards. -/
theorem kept_iff_packetLater :
    let start : Call := .start "paid" 0 "" ""
    let turns : List Turn := [.uam 0, .uam 0, .uam 0, .uam 0, .relay 0]
    (true = true → Kept oneUserConfig 0x0a000001 start
        (turns.foldl (step oneUserConfig 0x0a000001 start) (begin .init))) ↔
      Run.Guarded (Step oneUserConfig 0x0a000001 start) InTime (begin .init) turns :=
  kept_iff (by decide +kernel) (Run.of_foldl _ _ _) (by decide +kernel)

/-- The relay thread has looked twice for the session of the only user when the user is let in, and
then puts a captured one in its place. -/
theorem kept_packetBetween :
    ¬ ∀ cfg ip filterName interimInterval sessionContext eventContext m turns w ok,
      Shared.session m ip = none →
      Run (Step cfg ip (.start filterName interimInterval sessionContext eventContext)) (begin m)
        turns w → w.relay = .done ok → w.uam = .done true →
      Kept cfg ip (.start filterName interimInterval sessionContext eventContext) w := by
  intro h
  have hkept := h oneUserConfig 0x0a000001 "paid" 0 "" "" .init
    [.relay 0, .relay 0, .uam 0, .uam 0, .uam 0, .uam 0, .relay 0] _ false (by decide +kernel)
    (Run.of_foldl _ _ _) (by decide +kernel) (by decide +kernel)
  obtain ⟨e, -, -, happlied⟩ := hkept
  revert happlied
  decide +kernel

end Run

end Race

end Sweetspot
