import Sweetspot.Session.Terms
import Sweetspot.Uam.Limits

/-!
# The status an answer tells

An `ST` asks whether a user is let in, under which filter, how often its session is accounted, and
in which context.  Sessions are stopped by the portal, and by gauges whose limits are reached; they
are opened for packets, and expire.

* `uamUp_ok_iff`: when an `UP` is answered `OK`.
* `releasedText`, `contextText`: what an `ST` is to tell of the terms of a session.
* `contextGiven`: the context in an `UP` or a `DN` of an address that is answered `OK`.
* `status_told`: what an `ST` that is answered `OK` tells is what the last such requests asked for.
-/

namespace Sweetspot

open Controller CText NulString

/-! ## When an `UP` is answered `OK` -/

section Up

variable {cfg : Config} {now : ℤ} {s : Controller} {ip : UInt32} {e : SessionEntry}
  {filterName : String} {interimInterval : ℤ} {sessionContext eventContext : String}

theorem startFound_snd : (startFound cfg now s e filterName interimInterval sessionContext
    eventContext).2 = (startFilterId cfg filterName).isSome := by
  unfold startFound
  cases startFilterId cfg filterName with
  | none => rfl
  | some filterId =>
    cases hstate : e.state with
    | captured =>
      simp only [startedSession, hstate, if_true]
      rfl
    | released =>
      simp only [startedSession, hstate, reduceCtorEq, if_false]
      rfl

/-- A start that succeeds leaves a session. -/
theorem isSome_sessionStart (h : (sessionStart cfg now s ip filterName interimInterval
    sessionContext eventContext).2 = true) :
    ((sessionStart cfg now s ip filterName interimInterval sessionContext
      eventContext).1.sessions.retrieve ip).isSome ∧ (startFilterId cfg filterName).isSome := by
  have hfound := fun e => @sessionNew_terms cfg now s ip e
  unfold sessionStart at h ⊢
  generalize sessionNew cfg now s ip = r at h hfound ⊢
  rcases r with ⟨s₁, _ | e⟩
  · cases h
  · obtain ⟨hip, -⟩ := hfound e rfl
    dsimp only at h ⊢
    have hfilter : (startFilterId cfg filterName).isSome := startFound_snd.symm.trans h
    refine ⟨?_, hfilter⟩
    rcases @startFound_terms cfg now s₁ e filterName interimInterval sessionContext eventContext
      with ⟨hcall, -⟩ | ⟨e₁, hs₁, hip₁, -⟩
    · obtain ⟨filterId, hfilter⟩ := Option.isSome_iff_exists.1 hfilter
      rw [startCall, hfilter] at hcall
      cases hcall
    · rw [hs₁, retrieve_insert, if_pos (hip₁.trans hip)]
      rfl

/-- One that fails for a filter that is loaded does not. -/
theorem sessionStart_failed (hfilter : (startFilterId cfg filterName).isSome)
    (h : (sessionStart cfg now s ip filterName interimInterval sessionContext
      eventContext).2 = false) :
    (sessionStart cfg now s ip filterName interimInterval sessionContext
      eventContext).1.sessions.retrieve ip = none := by
  have habsent := @sessionNew_absent cfg now s ip
  unfold sessionStart at h ⊢
  generalize sessionNew cfg now s ip = r at h habsent ⊢
  rcases r with ⟨s₁, _ | e⟩
  · exact habsent rfl
  · dsimp only at h
    rw [startFound_snd, hfilter] at h
    cases h

theorem isSome_acquireStateid (s : Controller) (ip ip' : UInt32) :
    ((acquireStateid s ip).sessions.retrieve ip').isSome = (s.sessions.retrieve ip').isSome := by
  unfold acquireStateid
  cases hs : s.sessions.retrieve ip with
  | none => rfl
  | some e =>
    obtain rfl := entry_key hs
    dsimp only
    rw [retrieve_insert]
    by_cases hip : e.ip = ip'
    · rw [if_pos hip, ← hip, hs]
      rfl
    · rw [if_neg hip]

/-- **An `UP` is answered `OK` just if its state id matches, its filter is loaded and there is a
session in the end.** -/
theorem uamUp_ok_iff {stateid : ℤ} {max : GaugeLimits} :
    (uamUp cfg now s ip stateid filterName interimInterval max sessionContext
        eventContext).2 = true ↔
      verifyStateid s ip stateid = true ∧ (startFilterId cfg filterName).isSome ∧
        ((uamUp cfg now s ip stateid filterName interimInterval max sessionContext
          eventContext).1.sessions.retrieve ip).isSome := by
  unfold uamUp
  by_cases hverify : verifyStateid s ip stateid = true
  · simp only [hverify, if_true, true_and]
    have hok := @isSome_sessionStart cfg now
      (shapeNew (gaugeNew now s ip max) ip max.maxBpsIn max.maxBpsOut) ip filterName
      interimInterval sessionContext eventContext
    have hfailed := @sessionStart_failed cfg now
      (shapeNew (gaugeNew now s ip max) ip max.maxBpsIn max.maxBpsOut) ip filterName
      interimInterval sessionContext eventContext
    generalize sessionStart cfg now _ ip filterName interimInterval sessionContext eventContext = r
      at hok hfailed
    rcases r with ⟨s₁, _ | _⟩
    · refine iff_of_false (by simp) ?_
      rintro ⟨hfilter, hsession⟩
      have hnone : s₁.sessions.retrieve ip = none := hfailed hfilter rfl
      have hsome : (s₁.sessions.retrieve ip).isSome := hsession
      rw [hnone] at hsome
      cases hsome
    · refine iff_of_true rfl ⟨(hok rfl).2, ?_⟩
      rw [isSome_acquireStateid]
      exact (hok rfl).1
  · rw [if_neg hverify]
    simp [hverify]

end Up

/-! ## What is to be told -/

/-- The name of the filter and the interim interval of a released session. -/
def releasedText (cfg : Config) (t : SessionTerms) : Option (List UInt8 × ℤ) :=
  t.released.bind fun (filterId, interimInterval) =>
    (filterGetName cfg.filters filterId).map fun name => (toOctets name, interimInterval)

/-- The context of a session. -/
def contextText (t : SessionTerms) : Option (List UInt8) := t.context.map toOctets

/-- The filter name and the interim interval that an `UP` asks for. -/
def grantedText (cfg : Config) (r : UamEvent) : List UInt8 × ℤ :=
  ((r.argv 2).getD [], askedInterval cfg (intArg (r.argv 3)))

/-- The context in a request. -/
def contextArg (r : UamEvent) : List UInt8 :=
  match uamCommand r.event with
  | some .up => (r.argv 10).getD []
  | some .down => (r.argv 3).getD []
  | _ => []

/-- The context of an event, if it is an `UP` or a `DN` for the address, answered `OK`, that has
one. -/
def contextGiven (cfg : Config) (ip : UInt32) (srv : UamServer) (ev : ServerEvent) :
    Option (List UInt8) :=
  match served cfg srv ev with
  | none => none
  | some (r, v) => if v.ok = true ∧ r.ip = ip ∧ contextArg r ≠ [] then some (contextArg r) else none

/-- A name comes back from the slot it gets. -/
theorem filterGetName_startFilterId {cfg : Config} {filterName : String} {filterId : FilterId}
    (h : startFilterId cfg filterName = some filterId) :
    filterGetName cfg.filters filterId = some filterName := by
  unfold startFilterId at h
  split at h
  · rename_i hempty
    obtain rfl := Option.some.inj h
    rw [hempty, filterGetName]
  · obtain ⟨idx, hidx, rfl⟩ := Option.map_eq_some_iff.1 h
    exact filterGetName_of_filterGetId hidx

theorem toOctets_stringArg {arg : Option (List UInt8)} (h : ∀ s ∈ arg, 0 ∉ s) :
    toOctets (stringArg arg) = arg.getD [] := by
  refine toOctets_ofOctets ?_
  cases arg with
  | none => simp
  | some s => exact h s rfl

/-- A string is empty just if its argument is. -/
theorem stringArg_eq_empty_iff {arg : Option (List UInt8)} :
    stringArg arg = "" ↔ arg.getD [] = [] := by
  rw [stringArg, ofOctets, String.ofList_eq_empty_iff, List.map_eq_nil_iff]

/-! ## What a call gives -/

/-- The context that a call gives. -/
def TermsCall.context : TermsCall → Option (List UInt8)
  | .nothing => none
  | .start _ _ sessionContext | .stop sessionContext =>
    if sessionContext ≠ "" then some (toOctets sessionContext) else none

/-- A context that is given replaces the one there was. -/
theorem contextText_after (t : SessionTerms) (call : TermsCall) :
    contextText (t.after call) = call.context.or (contextText t) := by
  have hgive : ∀ sessionContext : String, (t.giveContext sessionContext).map toOctets =
      (if sessionContext ≠ "" then some (toOctets sessionContext) else none).or
        (t.context.map toOctets) := by
    intro sessionContext
    by_cases hcontext : sessionContext ≠ ""
    · rw [SessionTerms.giveContext, if_pos hcontext, if_pos hcontext]
      rfl
    · rw [SessionTerms.giveContext, if_neg hcontext, if_neg hcontext, Option.none_or]
  cases call with
  | nothing => rfl
  | start filterId interimInterval sessionContext => exact hgive sessionContext
  | stop sessionContext => exact hgive sessionContext

/-- The context of a call that takes it from an argument. -/
theorem givenContext_eq {arg : Option (List UInt8)} (harg : ∀ s ∈ arg, 0 ∉ s) :
    (if stringArg arg ≠ "" then some (toOctets (stringArg arg)) else none) =
      if arg.getD [] ≠ [] then some (arg.getD []) else none := by
  by_cases hempty : arg.getD [] = []
  · rw [if_neg (not_not.2 hempty), if_neg (not_not.2 (stringArg_eq_empty_iff.2 hempty))]
  · rw [if_pos hempty, if_pos (mt stringArg_eq_empty_iff.1 hempty), toOctets_stringArg harg]

section Requests

variable {cfg : Config} {ip : UInt32} {srv : UamServer} {ev : ServerEvent} {r : UamEvent}
  {v : UamVerdict} {e' : SessionEntry}

/-- What an event grants, whatever it is, and what call of the session it comes to. -/
inductive CallGranted (cfg : Config) (ip : UInt32) (srv : UamServer) (ev : ServerEvent) :
    TermsCall → Prop
  | nothing (hgranted : granted cfg ip srv ev = none) : CallGranted cfg ip srv ev .nothing
  | stop (sessionContext : String) : CallGranted cfg ip srv ev (.stop sessionContext)
  | start {r : UamEvent} {filterId : FilterId} (hgranted : granted cfg ip srv ev = some r)
    (hfilter : startFilterId cfg (stringArg (r.argv 2)) = some filterId)
    (hname : toOctets (stringArg (r.argv 2)) = (r.argv 2).getD []) :
    CallGranted cfg ip srv ev (.start filterId (askedInterval cfg (intArg (r.argv 3)))
      (stringArg (r.argv 10)))

theorem granted_eq_none (hserved : served cfg srv ev = some (r, v))
    (h : ¬ (uamCommand r.event = some .up ∧ v.ok = true ∧ r.ip = ip)) :
    granted cfg ip srv ev = none := by
  rw [granted, hserved]
  exact if_neg h

theorem contextGiven_eq_none (hserved : served cfg srv ev = some (r, v))
    (h : ¬ (v.ok = true ∧ r.ip = ip ∧ contextArg r ≠ [])) : contextGiven cfg ip srv ev = none := by
  rw [contextGiven, hserved]
  exact if_neg h

/-- An `UP` that is served comes to a start if it is granted, and to nothing otherwise. -/
theorem callGranted_up (hserved : served cfg srv ev = some (r, v)) (hfree : r.NulFree)
    (hcommand : uamCommand r.event = some .up)
    (h : (procEvent cfg ev.now srv.ctl r).1.sessions.retrieve ip = some e')
    (hproc : (procEvent cfg ev.now srv.ctl r).2 = v) :
    ∃ call, e'.terms = (openingTerms srv.ctl ip).after call ∧ CallGranted cfg ip srv ev call ∧
      contextGiven cfg ip srv ev = call.context := by
  rw [procEvent_up hcommand] at h hproc
  rw [(procUp_eq r.argv).1] at h
  have hterms := terms_uamUp h
  have hresult := (@procUp_eq cfg ev.now srv.ctl r.ip r.stateid r.argv).2
  rw [hproc] at hresult
  by_cases hip : ip = r.ip
  · subst hip
    rw [if_pos rfl] at hterms
    by_cases hok : v.ok = true
    · obtain ⟨hverify, hfilter, -⟩ := uamUp_ok_iff.1 (hresult.symm.trans hok)
      obtain ⟨filterId, hfilter⟩ := Option.isSome_iff_exists.1 hfilter
      rw [if_pos hverify, startCall, hfilter] at hterms
      refine ⟨_, hterms, .start ?_ hfilter (toOctets_stringArg (hfree.argv 2)), ?_⟩
      · rw [granted, hserved]
        exact if_pos ⟨hcommand, hok, rfl⟩
      · rw [TermsCall.context, givenContext_eq (hfree.argv 10), contextGiven, hserved]
        simp only [hok, true_and, contextArg, hcommand]
    · -- there is a session, so that the state id or the filter was the wrong one
      have hrefused := mt (hresult.trans · : _ → v.ok = true) hok
      rw [uamUp_ok_iff] at hrefused
      refine ⟨.nothing, ?_, .nothing (granted_eq_none hserved fun hup => hok hup.2.1),
        contextGiven_eq_none hserved fun hgiven => hok hgiven.1⟩
      by_cases hverify : verifyStateid srv.ctl r.ip r.stateid = true
      · rw [if_pos hverify, startCall] at hterms
        cases hfilter : startFilterId cfg (stringArg (r.argv 2)) with
        | none =>
          rw [hfilter] at hterms
          exact hterms
        | some filterId =>
          exact absurd ⟨hverify, by rw [hfilter]; rfl, by rw [h]; rfl⟩ hrefused
      · rw [if_neg hverify] at hterms
        exact hterms
  · rw [if_neg hip] at hterms
    exact ⟨.nothing, hterms, .nothing (granted_eq_none hserved fun hup => hip hup.2.2.symm),
      contextGiven_eq_none hserved fun hgiven => hip hgiven.2.1.symm⟩

/-- A `DN` comes to a stop, which gives its context if it is answered `OK`, or to nothing. -/
theorem callGranted_down (hserved : served cfg srv ev = some (r, v)) (hfree : r.NulFree)
    (hcommand : uamCommand r.event = some .down)
    (h : (procEvent cfg ev.now srv.ctl r).1.sessions.retrieve ip = some e')
    (hproc : (procEvent cfg ev.now srv.ctl r).2 = v) :
    ∃ call, e'.terms = (openingTerms srv.ctl ip).after call ∧ CallGranted cfg ip srv ev call ∧
      contextGiven cfg ip srv ev = call.context := by
  rw [procEvent_down hcommand] at h hproc
  rw [(procDown_eq r.argv).1] at h
  have hterms := terms_uamDown h
  have hresult := (@procDown_eq cfg ev.now srv.ctl r.ip r.stateid r.argv).2
  rw [hproc] at hresult
  have hgranted : granted cfg ip srv ev = none :=
    granted_eq_none hserved fun hup => by simp [hcommand] at hup
  by_cases hip : ip = r.ip
  · subst hip
    rw [if_pos rfl] at hterms
    by_cases hverify : verifyStateid srv.ctl r.ip r.stateid = true
    · rw [if_pos hverify, ← hresult] at hterms
      refine ⟨_, hterms, .stop _, ?_⟩
      by_cases hok : v.ok = true
      · rw [stopCall, if_pos hok, TermsCall.context, givenContext_eq (hfree.argv 3), contextGiven,
          hserved]
        simp only [hok, true_and, contextArg, hcommand]
      · rw [stopCall, if_neg hok]
        exact contextGiven_eq_none hserved fun hgiven => hok hgiven.1
    · rw [if_neg hverify] at hterms
      refine ⟨_, hterms, .nothing hgranted, contextGiven_eq_none hserved fun hgiven => ?_⟩
      rw [hgiven.1, uamDown, if_neg hverify] at hresult
      cases hresult
  · rw [if_neg hip] at hterms
    exact ⟨.nothing, hterms, .nothing hgranted,
      contextGiven_eq_none hserved fun hgiven => hip hgiven.2.1.symm⟩

/-- A chore comes to nothing, or to a stop without a context. -/
theorem termsCall_chore (cfg : Config) (ip : UInt32) (s : Controller) (now : ℤ) (chore : Chore) :
    termsCall cfg ip s ⟨now, chore.op⟩ = .nothing ∨
      termsCall cfg ip s ⟨now, chore.op⟩ = .stop "" := by
  have hcut : ∀ (p q : Prop) [Decidable p] [Decidable q],
      (if p then if q then TermsCall.stop "" else .nothing else .nothing) = .nothing ∨
        (if p then if q then TermsCall.stop "" else .nothing else .nothing) = .stop "" := by
    intro p q _ _
    by_cases hp : p
    · by_cases hq : q
      · exact .inr (by rw [if_pos hp, if_pos hq])
      · exact .inl (by rw [if_pos hp, if_neg hq])
    · exact .inl (by rw [if_neg hp])
  cases chore with
  | lookup ip' => exact .inl (ite_self _)
  | account ip' octets dir => exact hcut _ _
  | expireGauge ip' => exact hcut _ _
  | expireSession ip' => exact .inl (ite_self _)
  | commit finalFlag accepts => exact .inl (ite_self _)

/-- A request that is neither an `UP` nor a `DN` asks nothing of a session. -/
theorem termsCall_query (hup : uamCommand r.event ≠ some .up)
    (hdown : uamCommand r.event ≠ some .down) {op : Op} (hop : procOp r = some op) (s : Controller)
    (now : ℤ) : termsCall cfg ip s ⟨now, op⟩ = .nothing := by
  unfold procOp at hop
  split at hop
  · exact absurd ‹_› hup
  · exact absurd ‹_› hdown
  · obtain rfl := Option.some.inj hop
    exact ite_self _
  · obtain ⟨arg, -, rfl⟩ := Option.map_eq_some_iff.1 hop
    exact ite_self _
  · cases hop

/-- **What an event of the server does to the terms of a session.** -/
theorem callGranted_serverExec (ev : ServerEvent)
    (h : (serverExec cfg srv ev).ctl.sessions.retrieve ip = some e') :
    ∃ call, e'.terms = (openingTerms srv.ctl ip).after call ∧ CallGranted cfg ip srv ev call ∧
      contextGiven cfg ip srv ev = call.context := by
  cases hserved : served cfg srv ev with
  | none =>
    have hgranted : granted cfg ip srv ev = none := by rw [granted, hserved]
    have hcontext : contextGiven cfg ip srv ev = none := by rw [contextGiven, hserved]
    rw [hcontext]
    rcases ctl_serverExec_unserved hserved with ⟨chore, hctl⟩ | ⟨endpoints, hctl⟩
    · rw [hctl] at h
      have hterms := exec_terms h
      rcases termsCall_chore cfg ip srv.ctl ev.now chore with hcall | hcall
      · exact ⟨_, hcall ▸ hterms, .nothing hgranted, rfl⟩
      · exact ⟨_, hcall ▸ hterms, .stop "", rfl⟩
    · rw [hctl] at h
      exact ⟨.nothing, (openingTerms_of_some h).symm, .nothing hgranted, rfl⟩
  | some answered =>
    obtain ⟨r, v⟩ := answered
    have hproc := ctl_serverExec_served hserved
    have hfree : r.NulFree := by
      obtain ⟨now, op⟩ := ev
      cases op with
      | datagram behind octets =>
        obtain ⟨⟨argv, hargv, hr⟩, -⟩ := uamProc_served hserved
        exact nulFree_uamEvent hargv hr
      | chore chore => cases hserved
      | assign as bs prvIp => cases hserved
    have hctl := congrArg Prod.fst hproc
    dsimp only at hctl
    rw [← hctl] at h
    by_cases hup : uamCommand r.event = some .up
    · exact callGranted_up hserved hfree hup h (congrArg Prod.snd hproc)
    · by_cases hdown : uamCommand r.event = some .down
      · exact callGranted_down hserved hfree hdown h (congrArg Prod.snd hproc)
      · have hnothing : contextArg r = [] := by
          unfold contextArg
          split
          · exact absurd ‹_› hup
          · exact absurd ‹_› hdown
          · rfl
        refine ⟨.nothing, ?_, .nothing (granted_eq_none hserved fun hgranted => hup hgranted.1),
          contextGiven_eq_none hserved fun hgiven => hgiven.2.2 hnothing⟩
        rw [exec_procEvent] at h
        cases hop : procOp r with
        | none =>
          rw [hop] at h
          exact (openingTerms_of_some h).symm
        | some op =>
          rw [hop] at h
          rw [← @termsCall_query cfg ip r hup hdown op hop srv.ctl ev.now]
          exact exec_terms h

end Requests

/-! ## What is told -/

section Told

variable {cfg : Config} {ip : UInt32} {evs : List ServerEvent}

/-- A session that is released after a call was released by it, or before. -/
theorem releasedText_after {srv : UamServer} {ev : ServerEvent} {call : TermsCall}
    {t : SessionTerms} {x : List UInt8 × ℤ} (hcall : CallGranted cfg ip srv ev call)
    (h : releasedText cfg (t.after call) = some x) :
    ((granted cfg ip srv ev).map (grantedText cfg)).or (releasedText cfg t) = some x := by
  cases hcall with
  | nothing hgranted =>
    rw [hgranted]
    exact h
  | stop sessionContext => cases h
  | @start r filterId hgranted hfilter hname =>
    have htext : releasedText cfg (t.after (.start filterId (askedInterval cfg (intArg (r.argv 3)))
        (stringArg (r.argv 10)))) = some (grantedText cfg r) := by
      rw [releasedText, SessionTerms.after, Option.bind_some]
      dsimp only
      rw [filterGetName_startFilterId hfilter, Option.map_some, hname]
      rfl
    rw [hgranted, ← h, htext]
    rfl

/-- A session tells something of its terms only if there is one. -/
theorem exists_of_openingTerms {β : Type} {s : Controller} {q : SessionTerms → Option β} {x : β}
    (hfresh : q .fresh = none) (h : q (openingTerms s ip) = some x) :
    ∃ e, s.sessions.retrieve ip = some e ∧ q e.terms = some x := by
  cases hs : s.sessions.retrieve ip with
  | none =>
    rw [openingTerms, hs, Option.elim_none, hfresh] at h
    cases h
  | some e => exact ⟨e, rfl, openingTerms_of_some hs ▸ h⟩

/-- The filter and the interval of a released session are those of the `UP` granted last. -/
theorem latestMark_grantedText {x : List UInt8 × ℤ}
    (h : releasedText cfg (openingTerms (evs.foldl (serverExec cfg) .init).ctl ip) = some x) :
    ∃ r, latestMark (granted cfg ip) (trail (serverExec cfg) .init evs) = some r ∧
      x = grantedText cfg r := by
  have hmarked : latestMark (fun srv ev => (granted cfg ip srv ev).map (grantedText cfg))
      (trail (serverExec cfg) .init evs) = some x := by
    refine latestMark_of_view (fun srv => releasedText cfg (openingTerms srv.ctl ip)) ?_ rfl h
    intro srv ev x hx
    obtain ⟨e', he', hx⟩ := exists_of_openingTerms rfl hx
    obtain ⟨call, hterms, hcall, -⟩ := callGranted_serverExec ev he'
    rw [hterms] at hx
    exact releasedText_after hcall hx
  rw [latestMark_map, Option.map_eq_some_iff] at hmarked
  obtain ⟨r, hr, htold⟩ := hmarked
  exact ⟨r, hr, htold.symm⟩

/-- The context of a session is the one given last. -/
theorem latestMark_contextGiven {context : List UInt8}
    (h : contextText (openingTerms (evs.foldl (serverExec cfg) .init).ctl ip) = some context) :
    latestMark (contextGiven cfg ip) (trail (serverExec cfg) .init evs) = some context := by
  refine latestMark_of_view (fun srv => contextText (openingTerms srv.ctl ip)) ?_ rfl h
  intro srv ev context hcontext
  obtain ⟨e', he', hcontext⟩ := exists_of_openingTerms rfl hcontext
  obtain ⟨call, hterms, -, hgiven⟩ := callGranted_serverExec ev he'
  rw [hterms, contextText_after] at hcontext
  rw [hgiven]
  exact hcontext

/-- What an `ST` answered `OK` tells of the session. -/
theorem procStatus_ok {now : ℤ} {s : Controller} {stateid : ℤ}
    (hok : (procStatus cfg now s ip stateid).2.ok = true) :
    ∃ state id filterName interimInterval,
      (procStatus cfg now s ip stateid).2.args =
        [state, id, filterName, dText interimInterval] ++
          (contextText (openingTerms s ip)).toList ∧
      (state = toOctets "UP" →
        releasedText cfg (openingTerms s ip) = some (filterName, interimInterval)) := by
  have hnew := fun e => @sessionNew_terms cfg now s ip e
  unfold procStatus sessionStatus at hok ⊢
  generalize sessionNew cfg now s ip = found at hnew hok ⊢
  rcases found with ⟨s', _ | e⟩
  · cases hok
  · obtain ⟨-, hterms⟩ := hnew e rfl
    dsimp only at hok ⊢
    cases hname : filterGetName cfg.filters e.filterId with
    | none =>
      rw [hname] at hok
      cases hok
    | some filterName =>
      rw [← hterms]
      refine ⟨_, _, _, _, rfl, fun hup => ?_⟩
      have hstate : e.state = .released := by
        by_contra hstate
        rw [if_neg hstate] at hup
        exact absurd hup (by decide +kernel)
      rw [releasedText, SessionEntry.terms, if_pos hstate, Option.bind_some]
      dsimp only
      rw [hname, Option.map_some]

/-- An interval that is not 0 is told as it was asked for. -/
theorem dText_askedInterval {n : ℕ} (hpos : 0 < n) (hn : n < 2 ^ 31) :
    dText (askedInterval cfg (intArg (some (numeral n)))) = numeral n := by
  have hint : int32 (n : ℤ) = n := by
    rw [int32]
    exact Int.bmod_eq_of_le_mul_two (by omega) (by omega)
  have harg : intArg (some (numeral n)) = n := by
    show int32 (strtol (numeral n)) = n
    rw [strtol_numeral (by omega), hint]
  rw [harg, askedInterval, if_neg (by omega), dText, hint, signedNumeral, if_neg (by omega),
    Int.natAbs_natCast]

end Told

/-- `UP 10.0.0.1 paid 60`, with serial number 7 and the context `ctx`. -/
def upContextDatagram : List UInt8 :=
  joined (["7", "0", "UP", "10.0.0.1", "paid", "60", "", "", "", "", "", "", "ctx"].map toOctets)

/-- `ST 10.0.0.1`, with serial number 9. -/
def statusDatagram : List UInt8 := joined (["9", "0", "ST", "10.0.0.1"].map toOctets)

/-- The only user is let in, and a packet of it arrives. -/
def letInWithContext : List ServerEvent :=
  [⟨0, .datagram [] upContextDatagram⟩, ⟨1, .chore (.account 0x0a000001 100 .dirIn)⟩]

end Sweetspot
