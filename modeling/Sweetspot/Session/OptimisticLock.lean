import Sweetspot.Session.Workers

/-!
# The state id as an optimistic lock

A request carries the state id its sender has seen.  The worker compares it with the session's in
one section and counts the session up in another, so of two requests with one state id both may be
compared before either is counted.

* `OneWinner`: of two requests with one state id for one session, only one is answered `OK`, unless
  the count has come round.
* `StillCurrent`: a request would still match when it is counted.
* `Carries`: no section but the one that counts touches a state id (`carries_advance`).
* `oneWinner_of_guarded`: in a run whose requests all still match, there is only one winner.
-/

namespace Sweetspot

open Controller

namespace Workers

/-! ## At most one winner -/

/-- Of two modifications answered `OK` that came with one state id other than 0, and that were both
compared with and counted in one session, there are 2³¹ modifications of that session from the
first to the second. -/
def OneWinner (w : World) : Prop :=
  w.answers.Pairwise fun a b =>
    a.ip = b.ip → a.stateid = b.stateid → a.stateid ≠ 0 →
      ∀ n, a.compared = some n → a.acquired = some n → b.compared = some n → b.acquired = some n →
        a.number + 2 ^ 31 ≤ b.number + 1

/-- A request that counts its modification in the session its state id was compared with would
still pass the verification. -/
def StillCurrent (w : World) : Label → Prop
  | .run i _ => ∀ t ∈ w.threads i, t.pc = .acquire → t.compared = some (w.mem.made t.ip) →
      verifyStateid w.mem.ctl t.ip t.job.stateid = true
  | .take .. | .expire .. => True

instance (w : World) : DecidablePred (StillCurrent w)
  | .run i _ => inferInstanceAs (Decidable (∀ t ∈ w.threads i, t.pc = .acquire →
      t.compared = some (w.mem.made t.ip) → verifyStateid w.mem.ctl t.ip t.job.stateid = true))
  | .take .. | .expire .. => inferInstanceAs (Decidable True)

/-! ## What a section does to the state ids -/

/-- The state id of a session that has counted so many modifications. -/
def stateidAfter : ℕ → ℤ
  | 0 => 0
  | k + 1 => (k % 0x7fffffff : ℕ) + 1

/-- Counting goes from 0x7fffffff on to 1. -/
theorem stateidAfter_succ (k : ℕ) :
    stateidAfter (k + 1) =
      (if stateidAfter k = 0x7fffffff then 0 else stateidAfter k) + 1 := by
  cases k with
  | zero => rfl
  | succ k =>
    by_cases hlast : stateidAfter (k + 1) = 0x7fffffff
    · rw [if_pos hlast]
      simp only [stateidAfter] at hlast ⊢
      omega
    · rw [if_neg hlast]
      simp only [stateidAfter] at hlast ⊢
      omega

/-- A state id other than 0 comes back after 0x7fffffff modifications. -/
theorem stateidAfter_eq {i j : ℕ} (hij : i < j) (hne : stateidAfter i ≠ 0)
    (h : stateidAfter i = stateidAfter j) : i + 0x7fffffff ≤ j := by
  cases i with
  | zero => exact absurd rfl hne
  | succ i =>
    cases j with
    | zero => omega
    | succ j =>
      simp only [stateidAfter] at h
      omega

/-- The sessions of `m'` have the state ids they had in `m`, and as many modifications; a session
made since then has the state id 0 and no modifications. -/
structure Carries (m m' : Shared) : Prop where
  made : ∀ ip, m.made ip ≤ m'.made ip
  modified : ∀ ip, m'.made ip = m.made ip → m'.modified ip = m.modified ip
  stateid : ∀ ip e', m'.session ip = some e' →
    (m'.made ip = m.made ip ∧ ∃ e, m.session ip = some e ∧ e'.stateid = e.stateid) ∨
      (m'.modified ip = 0 ∧ e'.stateid = 0)

namespace Carries

variable {m m' m'' : Shared}

theorem of_sessions (hs : ∀ ip e', m'.session ip = some e' →
      ∃ e, m.session ip = some e ∧ e'.stateid = e.stateid)
    (hmade : m'.made = m.made) (hmodified : m'.modified = m.modified) : Carries m m' where
  made ip := le_of_eq (congrFun hmade ip).symm
  modified ip _ := congrFun hmodified ip
  stateid ip e' he' := Or.inl ⟨congrFun hmade ip, hs ip e' he'⟩

theorem refl (m : Shared) : Carries m m :=
  of_sessions (fun _ e' he' => ⟨e', he', rfl⟩) rfl rfl

theorem trans (h : Carries m m') (h' : Carries m' m'') : Carries m m'' where
  made ip := (h.made ip).trans (h'.made ip)
  modified ip hmade := by
    have hle := h.made ip
    have hle' := h'.made ip
    rw [h'.modified ip (by omega), h.modified ip (by omega)]
  stateid ip e'' he'' := by
    rcases h'.stateid ip e'' he'' with ⟨hmade', e', he', hsame'⟩ | hfresh
    · rcases h.stateid ip e' he' with ⟨hmade, e, he, hsame⟩ | ⟨hnone, hzero⟩
      · exact Or.inl ⟨hmade'.trans hmade, e, he, hsame'.trans hsame⟩
      · exact Or.inr ⟨(h'.modified ip hmade').trans hnone, hsame'.trans hzero⟩
    · exact Or.inr hfresh

/-- The sessions are as they were. -/
theorem same {ctl : Controller} (h : ctl.sessions = m.ctl.sessions) :
    Carries m { m with ctl := ctl } := by
  refine of_sessions ?_ rfl rfl
  intro ip e' he'
  refine ⟨e', ?_, rfl⟩
  rw [← he']
  exact congrArg (fun t : KeyedTable entryComparator SessionEntry.ip => t.retrieve ip) h.symm

/-- One session was changed, but not its state id. -/
theorem worked {ctl : Controller} {e : SessionEntry} (he : m.session e.ip = some e)
    (h : Worked m.ctl e ctl) : Carries m { m with ctl := ctl } := by
  cases h with
  | same hs => exact same hs
  | @changed e' hs hip hstateid =>
    refine of_sessions ?_ rfl rfl
    intro ip e'' he''
    have hput : (if ip = e.ip then some e' else m.session ip) = some e'' :=
      (retrieve_put hs hip ip).symm.trans he''
    by_cases hne : ip = e.ip
    · rw [if_pos hne] at hput
      obtain rfl := Option.some.inj hput
      exact ⟨e, by rw [hne]; exact he, hstateid⟩
    · rw [if_neg hne] at hput
      exact ⟨e'', hput, rfl⟩

/-- A session was put into the table. -/
theorem remade {ctl : Controller} {ip : UInt32} {found : Option SessionEntry}
    (hs : ∀ ip', ctl.sessions.retrieve ip' = if ip' = ip then found else m.session ip')
    (hfresh : ∀ e ∈ found, e.stateid = 0) : Carries m (m.remade ip ctl) where
  made ip' := by
    by_cases hip : ip' = ip
    · rw [hip]
      simp [Shared.remade]
    · simp [Shared.remade, hip]
  modified ip' hmade := by
    by_cases hip : ip' = ip
    · rw [hip] at hmade
      simp [Shared.remade] at hmade
    · simp [Shared.remade, hip]
  stateid ip' e' he' := by
    have hput : (if ip' = ip then found else m.session ip') = some e' := (hs ip').symm.trans he'
    by_cases hip : ip' = ip
    · rw [if_pos hip] at hput
      exact Or.inr ⟨by simp [Shared.remade, hip], hfresh e' hput⟩
    · rw [if_neg hip] at hput
      exact Or.inl ⟨by simp [Shared.remade, hip], e', hput, rfl⟩

end Carries

section Sections

variable {cfg : Config} {now : ℤ} {m : Shared} {ip : UInt32}

theorem carries_make (now : ℤ) (m : Shared) (ip : UInt32) :
    Carries m (sessionMake cfg now m ip).1 := by
  have hmade := @sessionMake_made cfg now m ip
  generalize sessionMake cfg now m ip = r at hmade
  cases hmade with
  | barred hbarred => exact .refl m
  | kept hnet hfilter he hs =>
    refine .remade hs ?_
    rintro e ⟨⟩
    rw [he]
    rfl
  | dropped hs => exact .remade hs (by simp)

theorem carries_work {e : SessionEntry} (hm : m.session ip = some e) (found : Bool) (c : Call) :
    Carries m (c.work cfg now m e found).1 := by
  obtain rfl : e.ip = ip := entry_key hm
  exact .worked hm (locked_worked m.ctl e found c)

/-- No section of a call counts a session up. -/
theorem carries_callAdvance (c : Call) (back : Bool → Pc) (pc : CallPc) :
    Carries m (Job.callAdvance cfg now m ip c back pc).1 := by
  show Carries m (c.advance cfg now m ip pc).1
  have hadvance := @advance_advanced cfg now m ip c pc
  generalize c.advance cfg now m ip pc = r at hadvance
  cases hadvance with
  | missed h => exact .refl m
  | missedAgain h => exact .refl m
  | found h => exact carries_work h true c
  | foundAgain h => exact carries_work h false c
  | @made m' e h =>
    have hmake := @carries_make cfg now m ip
    have hmade := @sessionMake_made cfg now m ip
    rw [h] at hmake hmade
    have hsession : m'.session ip = some e := by
      cases hmade with
      | kept hnet hfilter he hs => exact (hs ip).trans (if_pos rfl)
    exact hmake.trans (carries_work hsession false c)
  | refused h =>
    have hmake := @carries_make cfg now m ip
    rwa [h] at hmake
  | submitted type => exact .same rfl
  | rest ok => exact .refl m

theorem carries_retention (retention : ℤ) :
    Carries m { m with ctl := (sessionRetention m.ctl ip retention).1 } := by
  have hretention := sessionRetention_outcome m.ctl ip retention
  generalize sessionRetention m.ctl ip retention = r at hretention ⊢
  cases hretention with
  | absent h => exact .refl m
  | kept hpos => exact .refl m
  | stored h hpos =>
    obtain rfl := entry_key h
    exact .worked h (.changed rfl rfl rfl)

theorem carries_expire (now : ℤ) (m : Shared) (ip : UInt32) :
    Carries m { m with ctl := expireSessionCb cfg now m.ctl ip } := by
  have hexpire := @expireSessionCb_outcome cfg now m.ctl ip
  generalize expireSessionCb cfg now m.ctl ip = s at hexpire ⊢
  cases hexpire with
  | spared => exact .refl m
  | @closed e h hstate hdead =>
    refine .of_sessions ?_ rfl rfl
    intro ip' e' he'
    have hdel : (sessionDel cfg m.ctl ip).sessions.retrieve ip' = some e' := he'
    simp only [sessionDel, h, retrieve_delete] at hdel
    by_cases hip : ip' = ip
    · rw [if_pos hip] at hdel
      cases hdel
    · rw [if_neg hip] at hdel
      exact ⟨e', hdel, rfl⟩
  | interim h hstate hinterim =>
    obtain rfl := entry_key h
    exact .worked h (.changed rfl rfl rfl)

theorem carries_up (filterName : String) (interimInterval : ℤ) (max : GaugeLimits)
    (sessionContext eventContext : String) (pc : Pc) :
    Carries m (Job.upAdvance cfg now m ip filterName interimInterval max sessionContext eventContext
      pc).1 := by
  cases pc with
  | call pc => exact carries_callAdvance _ _ pc
  | gaugeNew | shapeNew | undoGauge | undoShape => exact .same rfl
  | verify | gaugeDel | retain | acquire | done => exact .refl m

theorem carries_down (filterName sessionContext eventContext : String) (pc : Pc) :
    Carries m (Job.downAdvance cfg now m ip filterName sessionContext eventContext pc).1 := by
  cases pc with
  | call pc => exact carries_callAdvance _ _ pc
  | gaugeDel => exact .same rfl
  | verify | gaugeNew | shapeNew | undoGauge | undoShape | retain | acquire | done => exact .refl m

theorem carries_retain (retention : Option ℤ) (pc : Pc) :
    Carries m (Job.retentionAdvance m ip retention pc).1 := by
  cases retention with
  | none => cases pc <;> exact .refl m
  | some retention =>
    cases pc with
    | retain => exact carries_retention retention
    | verify | gaugeNew | shapeNew | call | gaugeDel | undoGauge | undoShape | acquire | done =>
      exact .refl m

/-- **No section but the one that counts** touches a state id. -/
theorem carries_advance (job : Job) {pc : Pc} (hpc : pc ≠ .acquire) :
    Carries m (job.advance cfg now m ip pc).1 := by
  cases job with
  | call c =>
    cases pc with
    | call pc => exact carries_callAdvance c .done pc
    | acquire => exact absurd rfl hpc
    | verify | gaugeNew | shapeNew | gaugeDel | undoGauge | undoShape | retain | done =>
      exact .refl m
  | request req =>
    cases pc with
    | verify => exact .refl m
    | acquire => exact absurd rfl hpc
    | gaugeNew | shapeNew | call | gaugeDel | undoGauge | undoShape | retain | done =>
      cases req with
      | up stateid filterName interimInterval max sessionContext eventContext =>
        exact carries_up filterName interimInterval max sessionContext eventContext _
      | down stateid filterName sessionContext eventContext =>
        exact carries_down filterName sessionContext eventContext _
      | retention stateid retention => exact carries_retain retention _

/-- The section that counts, in a session that is there. -/
theorem acquire_session {e : SessionEntry} (h : m.session ip = some e) (ip' : UInt32) :
    (acquire m ip).session ip' =
      if ip' = ip then
        some { e with stateid := (if e.stateid = 0x7fffffff then 0 else e.stateid) + 1 }
      else m.session ip' := by
  have hip : e.ip = ip := entry_key h
  have hctl : (acquireStateid m.ctl ip).sessions = m.ctl.sessions.insert
      { e with stateid := (if e.stateid = 0x7fffffff then 0 else e.stateid) + 1 } := by
    unfold acquireStateid
    rw [show m.ctl.sessions.retrieve ip = some e from h]
  exact retrieve_put hctl hip ip'

theorem acquire_none (h : m.session ip = none) : acquire m ip = m := by
  have hctl : acquireStateid m.ctl ip = m.ctl := by
    unfold acquireStateid
    rw [show m.ctl.sessions.retrieve ip = none from h]
  simp [acquire, hctl, h]

end Sections

/-! ## Runs -/

/-- **The invariant.**  The sessions have the state ids of as many modifications as they have
counted; the modifications answered `OK` are among those counted; one that was compared with the
session it is counted in has found the state id before it. -/
structure Inv (w : World) : Prop where
  stateid : ∀ ip e, w.mem.session ip = some e → e.stateid = stateidAfter (w.mem.modified ip)
  counted : ∀ a ∈ w.answers, ∀ n, a.acquired = some n →
    n ≤ w.mem.made a.ip ∧ (n = w.mem.made a.ip → a.number ≤ w.mem.modified a.ip)
  matched : ∀ a ∈ w.answers, a.stateid ≠ 0 → ∀ n, a.compared = some n → a.acquired = some n →
    ∃ k, a.number = k + 1 ∧ a.stateid = stateidAfter k
  winner : OneWinner w

theorem inv_init : Inv .init where
  stateid ip e h := by cases h
  counted a ha := by cases ha
  matched a ha := by cases ha
  winner := List.Pairwise.nil

/-- A step that counts nothing. -/
theorem Inv.carry {w w' : World} (hw : Inv w) (h : Carries w.mem w'.mem)
    (hanswers : w'.answers = w.answers) : Inv w' where
  stateid ip e' he' := by
    rcases h.stateid ip e' he' with ⟨hmade, e, he, hsame⟩ | ⟨hnone, hzero⟩
    · rw [hsame, hw.stateid ip e he, h.modified ip hmade]
    · rw [hzero, hnone]
      rfl
  counted a ha n hn := by
    rw [hanswers] at ha
    obtain ⟨hle, hnumber⟩ := hw.counted a ha n hn
    have hmade := h.made a.ip
    refine ⟨hle.trans hmade, ?_⟩
    intro heq
    have hsame : w'.mem.made a.ip = w.mem.made a.ip := by omega
    rw [h.modified a.ip hsame]
    exact hnumber (heq.trans hsame)
  matched a ha := hw.matched a (hanswers ▸ ha)
  winner := by
    unfold OneWinner
    rw [hanswers]
    exact hw.winner

/-- What is remembered of a modification counted in a session that is there. -/
theorem answer_acquired {t : Thread} {m : Shared} {n : ℕ}
    (h : (t.answer m).acquired = some n) : (∃ e, m.session t.ip = some e) ∧ n = m.made t.ip := by
  have hcurrent : (m.session t.ip).map (fun _ => m.made t.ip) = some n := h
  obtain ⟨e, he, hmade⟩ := Option.map_eq_some_iff.1 hcurrent
  exact ⟨⟨e, he⟩, hmade.symm⟩

theorem le_modified_acquire (m : Shared) (ip ip' : UInt32) :
    m.modified ip' ≤ (acquire m ip).modified ip' := by
  simp only [acquire]
  split
  · by_cases hip : ip' = ip
    · rw [hip, Function.update_self]
      omega
    · rw [Function.update_of_ne hip]
  · rfl

section Acquire

variable {w : World} {t : Thread}

/-- A modification that would still pass the verification, and is counted in the session it was
compared with, came with the state id that this session has. -/
theorem Inv.matched_last (hw : Inv w)
    (hcurrent : t.compared = some (w.mem.made t.ip) →
      verifyStateid w.mem.ctl t.ip t.job.stateid = true)
    (hne : t.job.stateid ≠ 0) {n : ℕ} (hcompared : t.compared = some n)
    (hacquired : (t.answer w.mem).acquired = some n) :
    t.job.stateid = stateidAfter (w.mem.modified t.ip) := by
  obtain ⟨⟨e, he⟩, rfl⟩ := answer_acquired hacquired
  have hverify := hcurrent hcompared
  unfold verifyStateid at hverify
  rw [show w.mem.ctl.sessions.retrieve t.ip = some e from he] at hverify
  have hsame : e.stateid = t.job.stateid := by simpa [hne] using hverify
  rw [← hsame]
  exact hw.stateid t.ip e he

/-- An earlier winner with the same state id is a whole round behind. -/
theorem Inv.winner_last (hw : Inv w)
    (hcurrent : t.compared = some (w.mem.made t.ip) →
      verifyStateid w.mem.ctl t.ip t.job.stateid = true)
    {a : Answer} (ha : a ∈ w.answers) (hip : a.ip = t.ip) (hstateid : a.stateid = t.job.stateid)
    (hne : a.stateid ≠ 0) {n : ℕ} (hcompared : a.compared = some n)
    (hacquired : a.acquired = some n) (hcompared' : t.compared = some n)
    (hacquired' : (t.answer w.mem).acquired = some n) :
    a.number + 2 ^ 31 ≤ (t.answer w.mem).number + 1 := by
  obtain ⟨k, hk, hmatched⟩ := hw.matched a ha hne n hcompared hacquired
  have hlast := hw.matched_last hcurrent (hstateid ▸ hne) hcompared' hacquired'
  have hbefore : a.number ≤ w.mem.modified t.ip := by
    have hcounted := (hw.counted a ha n hacquired).2
      (by rw [hip]; exact (answer_acquired hacquired').2)
    rwa [hip] at hcounted
  have hsame : stateidAfter k = stateidAfter (w.mem.modified t.ip) := by
    rw [← hmatched, ← hlast, hstateid]
  have hround := stateidAfter_eq (by omega) (hmatched ▸ hne) hsame
  show a.number + 2 ^ 31 ≤ w.mem.modified t.ip + 1 + 1
  omega

/-- A modification is counted; if it was compared with the session that is there, the session still
has the state id that it came with. -/
theorem Inv.acquire {w' : World} (hw : Inv w)
    (hcurrent : t.compared = some (w.mem.made t.ip) →
      verifyStateid w.mem.ctl t.ip t.job.stateid = true)
    (hmem : w'.mem = Workers.acquire w.mem t.ip)
    (hanswers : w'.answers = w.answers ++ [t.answer w.mem]) : Inv w' where
  stateid ip e' he' := by
    rw [hmem] at he' ⊢
    cases hsession : w.mem.session t.ip with
    | none =>
      rw [acquire_none hsession] at he' ⊢
      exact hw.stateid ip e' he'
    | some e =>
      rw [acquire_session hsession] at he'
      simp only [Workers.acquire, hsession, Option.isSome_some, if_true]
      by_cases hip : ip = t.ip
      · rw [if_pos hip] at he'
        obtain rfl := Option.some.inj he'
        rw [hip, Function.update_self, stateidAfter_succ, ← hw.stateid t.ip e hsession]
      · rw [if_neg hip] at he'
        rw [Function.update_of_ne hip]
        exact hw.stateid ip e' he'
  counted a ha n hn := by
    rw [hanswers, List.mem_append, List.mem_singleton] at ha
    rw [hmem]
    rcases ha with ha | rfl
    · obtain ⟨hle, hnumber⟩ := hw.counted a ha n hn
      exact ⟨hle, fun heq => (hnumber heq).trans (le_modified_acquire w.mem t.ip a.ip)⟩
    · obtain ⟨⟨e, he⟩, rfl⟩ := answer_acquired hn
      refine ⟨le_rfl, fun _ => ?_⟩
      simp only [Workers.acquire, Thread.answer, he, Option.isSome_some, if_true,
        Function.update_self]
      rfl
  matched a ha hne n hcompared hacquired := by
    rw [hanswers, List.mem_append, List.mem_singleton] at ha
    rcases ha with ha | rfl
    · exact hw.matched a ha hne n hcompared hacquired
    · exact ⟨w.mem.modified t.ip, rfl, hw.matched_last hcurrent hne hcompared hacquired⟩
  winner := by
    unfold OneWinner
    rw [hanswers, List.pairwise_append]
    refine ⟨hw.winner, List.pairwise_singleton .., ?_⟩
    intro a ha b hb hip hstateid hne n hcompared hacquired hcompared' hacquired'
    obtain rfl := List.mem_singleton.1 hb
    exact hw.winner_last hcurrent ha hip hstateid hne hcompared hacquired hcompared' hacquired'

end Acquire

/-- **Step lemma.** -/
theorem inv_step {cfg : Config} {w w' : World} {l : Label} (hstep : Step cfg w l w')
    (hguard : StillCurrent w l) (hw : Inv w) : Inv w' := by
  cases l with
  | take i ip job =>
    simp only [Step, step] at hstep
    split at hstep
    · obtain rfl := Option.some.inj hstep
      exact hw.carry (.refl _) rfl
    · cases hstep
  | run i now =>
    obtain ⟨t, ht, rfl⟩ := Option.map_eq_some_iff.1 hstep
    by_cases hpc : t.pc = .acquire
    · refine hw.acquire (hguard t ht hpc) ?_ ?_
      · simp only [World.advance, hpc, Job.advance]
      · simp only [World.advance, if_pos hpc]
    · refine hw.carry (carries_advance t.job hpc) ?_
      simp only [World.advance, if_neg hpc]
  | expire now ip =>
    obtain rfl := Option.some.inj hstep
    exact hw.carry (carries_expire now w.mem ip) rfl

/-- **The state id is an optimistic lock where it is compared again.**  In every run in which no
session is counted up between a request's comparing and its counting, two modifications with one
state id for one session are never both answered `OK` unless the count has come round. -/
theorem oneWinner_of_guarded {cfg : Config} {labels : List Label} {w : World}
    (hrun : Run (Step cfg) .init labels w)
    (hguard : Run.Guarded (Step cfg) StillCurrent .init labels) : OneWinner w := by
  refine (Run.invariant_of_guarded (P := Inv) ?_ hrun hguard inv_init).winner
  intro w l w' hstep hG hw
  exact inv_step hstep hG hw

/-- The only user is let in, with whatever state id. -/
def letIn : List Label := .take 0 0x0a000001 (.request (.up 0 "paid" 0 .unlimited "" "")) ::
  List.replicate 8 (.run 0 0)

/-- Two requests with the state id 1, one after the other. -/
def oneAfterOther : List Label :=
  letIn ++ .take 1 0x0a000001 (.request (.up 1 "paid" 0 .unlimited "" "")) ::
    List.replicate 5 (.run 1 0) ++
      [.take 0 0x0a000001 (.request (.down 1 "" "" "")), .run 0 0]

theorem oneWinner_of_guarded_oneAfterOther :
    ∃ w, Run (Step oneUserConfig) .init oneAfterOther w ∧ w.answers.length = 2 ∧ OneWinner w := by
  obtain ⟨w, hw⟩ := Option.isSome_iff_exists.1
    (show (oneAfterOther.foldlM (fun w l => if StillCurrent w l then step oneUserConfig w l
      else none) World.init).isSome by decide +kernel)
  have hlength : (oneAfterOther.foldlM (fun w l => if StillCurrent w l then step oneUserConfig w l
      else none) World.init).map (fun w => w.answers.length) = some 2 := by
    decide +kernel
  obtain ⟨hrun, hguard⟩ := Run.guarded_of_foldlM hw
  rw [hw] at hlength
  exact ⟨w, hrun, Option.some.inj hlength, oneWinner_of_guarded hrun hguard⟩

/-- Two requests with the state id 1, both compared before either is counted. -/
def bothCompared : List Label :=
  letIn ++ [.take 0 0x0a000001 (.request (.up 1 "paid" 0 .unlimited "" "")),
    .take 1 0x0a000001 (.request (.down 1 "" "" "")), .run 0 0, .run 1 0] ++
      List.replicate 4 (.run 0 0) ++ List.replicate 4 (.run 1 0)

/-- Both are answered `OK`. -/
theorem oneWinner_bothCompared :
    ¬ ∀ cfg labels w, Run (Step cfg) .init labels w → OneWinner w := by
  intro h
  have hanswers : (bothCompared.foldlM (step oneUserConfig) World.init).map World.answers =
      some [⟨0x0a000001, 0, none, some 1, 1⟩, ⟨0x0a000001, 1, some 1, some 1, 2⟩,
        ⟨0x0a000001, 1, some 1, some 1, 3⟩] := by
    decide +kernel
  obtain ⟨w, hw, hlast⟩ := Option.map_eq_some_iff.1 hanswers
  have hwinner := h oneUserConfig bothCompared w (Run.of_foldlM hw)
  unfold OneWinner at hwinner
  rw [hlast] at hwinner
  simp at hwinner

end Workers

end Sweetspot
