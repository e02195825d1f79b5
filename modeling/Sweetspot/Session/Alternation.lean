import Mathlib.Data.List.Chain
import Sweetspot.Session.System

/-!
# START and STOP

Each release of a session is to submit one START record and each capture of a released one a STOP or
STOP_TIME record, so that the records of an address alternate.  `sw_session_stop` looks the filter
up between the change of state and the record, and submits none if the filter is not loaded.

* `marks`, `turns`: the records of an address that begin or end a period, and those its session
  should leave.
* `Recorded`: an event leaves just these.
* `AudibleStop`: a stop of a released session asks for a loaded filter.
* `alternation_iff`: the records are complete and alternate exactly if all stops of a run are such.
-/

namespace Sweetspot

open Controller

/-! ## Records that begin and end a period -/

/-- A record begins a period or ends one. -/
inductive Mark
  | start | stop
  deriving DecidableEq, Repr

def AcctType.mark : AcctType → Option Mark
  | .start => some .start
  | .stop | .stopTime => some .stop
  | .interim => none

theorem AcctType.IsStop.mark {type : AcctType} (h : type.IsStop) : type.mark = some .stop := by
  rcases h with rfl | rfl <;> rfl

/-- The records of the address that begin or end a period. -/
def marks (ip : UInt32) (records : List AcctEntry) : List Mark :=
  records.filterMap fun r => if r.ip = ip then r.type.mark else none

/-- They alternate, and the first one is a start. -/
def Alternates (ms : List Mark) : Prop := List.IsChain (· ≠ ·) (.stop :: ms)

/-- What a session should leave that was released before or not, and is released now or not. -/
def turns (before now : Bool) : List Mark :=
  match before, now with
  | false, true => [.start]
  | true, false => [.stop]
  | _, _ => []

/-- The session of the address is released. -/
def Books.released (b : Books) (ip : UInt32) : Bool :=
  (b.standing ip).any fun st => st.state = .released

/-- An event leaves the records it should, for every address. -/
def Recorded (b b' : Books) : Prop :=
  ∀ ip, marks ip b'.submitted = marks ip b.submitted ++ turns (b.released ip) (b'.released ip)

/-- If the call stops a released session, it asks for a loaded filter. -/
def Audible (cfg : Config) (ip : UInt32) (b : Books) (call : SessionCall) : Prop :=
  ∀ filterName st, call = .stop filterName → b.standing ip = some st → st.state = .released →
    (filterGetId cfg.filters (stopFilterName cfg filterName st.dnFilterName).1).isSome

/-- If the event stops a released session, it asks for a loaded filter. -/
def AudibleStop (cfg : Config) (s : Controller) (ev : Event) : Prop :=
  ∀ ip, ev.op.ip = some ip → Audible cfg ip s.books (call s ev)

@[simp] theorem turns_self (released : Bool) : turns released released = [] := by
  cases released <;> rfl

theorem marks_append (ip : UInt32) (l l' : List AcctEntry) :
    marks ip (l ++ l') = marks ip l ++ marks ip l' :=
  List.filterMap_append

/-- Records of one address are no records of another. -/
theorem marks_eq_nil {ip ip' : UInt32} {l : List AcctEntry} (h : ∀ r ∈ l, r.ip = ip)
    (hip : ip' ≠ ip) : marks ip' l = [] := by
  apply List.filterMap_eq_nil_iff.2
  intro r hr
  rw [if_neg]
  rw [h r hr]
  exact hip.symm

/-! ## One event -/

section Event

variable {cfg : Config} {ip : UInt32} {b b' : Books} {call : SessionCall}

theorem released_of_standing {st : Standing} (h : b.standing ip = some st) :
    b.released ip = decide (st.state = .released) := by
  rw [Books.released, h, Option.any_some]

@[simp] theorem released_submit (r : AcctEntry) : (b.submit r).released = b.released := rfl

@[simp] theorem released_set (st : Option Standing) (ip' : UInt32) :
    (b.set ip st).released ip' =
      if ip' = ip then st.any fun st => st.state = .released else b.released ip' := by
  rw [Books.released, Books.set_standing]
  by_cases h : ip' = ip
  · rw [if_pos h, if_pos h]
  · rw [if_neg h, if_neg h]
    rfl

/-- Only the address of the event has to be looked at. -/
theorem recorded_iff {l : List AcctEntry} (hsubmitted : b'.submitted = b.submitted ++ l)
    (hl : ∀ r ∈ l, r.ip = ip) (hother : ∀ ip' ≠ ip, b'.released ip' = b.released ip') :
    Recorded b b' ↔ marks ip l = turns (b.released ip) (b'.released ip) := by
  constructor
  · intro h
    have hip := h ip
    rw [hsubmitted, marks_append] at hip
    exact List.append_cancel_left hip
  · intro h ip'
    rw [hsubmitted, marks_append]
    by_cases hip : ip' = ip
    · rw [hip, h]
    · rw [marks_eq_nil hl hip, hother ip' hip, turns_self]

/-- An event without records, after which the same sessions are released. -/
theorem recorded_of_released (hsubmitted : b'.submitted = b.submitted)
    (hreleased : b'.released = b.released) : Recorded b b' := by
  intro ip
  rw [hsubmitted, hreleased, turns_self, List.append_nil]

/-- A session just opened is not released. -/
theorem opening_released (hopen : Opening cfg ip b b') :
    b'.submitted = b.submitted ∧ b'.released = b.released := by
  cases hopen with
  | kept => exact ⟨rfl, rfl⟩
  | opened hnone hfilter =>
    refine ⟨rfl, ?_⟩
    funext ip'
    rw [released_set]
    by_cases hip : ip' = ip
    · subst hip
      rw [if_pos rfl, Books.released, hnone]
      rfl
    · rw [if_neg hip]
      rfl

/-- **Step lemma.** A call leaves the records it should exactly if it is no stop of a released
session that asks for a filter that is not loaded. -/
theorem recorded_acting_iff (hact : Acting cfg ip b call b') :
    Recorded b b' ↔ Audible cfg ip b call := by
  have hnoStop : Recorded b b' → (∀ filterName, call ≠ .stop filterName) →
      (Recorded b b' ↔ Audible cfg ip b call) := by
    intro hrecorded hcall
    exact iff_of_true hrecorded fun filterName st h => absurd h (hcall filterName)
  cases hact with
  | nothing => exact hnoStop (recorded_of_released rfl rfl) (by simp)
  | lookup => exact hnoStop (recorded_of_released rfl rfl) (by simp)
  | spared => exact hnoStop (recorded_of_released rfl rfl) (by simp)
  | unknown hfilter => exact hnoStop (recorded_of_released rfl rfl) (by simp)
  | refused hnone =>
    refine iff_of_true (recorded_of_released rfl rfl) ?_
    intro filterName st hcall hst
    rw [hnone] at hst
    cases hst
  | @again filterName st filterId hst hstate hfilter =>
    refine hnoStop ?_ (by simp)
    have hbefore := released_of_standing hst
    rw [@recorded_iff ip _ _ [] (by simp [Books.set]) (by simp) fun ip' hip => by simp [hip]]
    simp [hbefore, hstate, marks]
  | @released filterName st filterId r hst hstate hfilter hr htype =>
    refine hnoStop ?_ (by simp)
    have hbefore := released_of_standing hst
    rw [@recorded_iff ip _ _ [r] rfl (by simp [hr.ip_eq]) fun ip' hip => by simp [hip]; rfl]
    simp [hbefore, hstate, marks, hr.ip_eq, htype, AcctType.mark, turns]
  | @captive filterName st hst hstate =>
    have hbefore := released_of_standing hst
    refine iff_of_true ?_ ?_
    · rw [@recorded_iff ip _ _ [] (by simp [Books.set]) (by simp) fun ip' hip => by simp [hip]]
      simp [hbefore, hstate, marks]
    · intro filterName' st' hcall hst' hstate'
      rw [hst] at hst'
      cases hst'
      rw [hstate] at hstate'
      cases hstate'
  | @recaptured filterName st filterId r hst hstate hfilter hr htype =>
    have hbefore := released_of_standing hst
    refine iff_of_true ?_ ?_
    · rw [@recorded_iff ip _ _ [r] rfl (by simp [hr.ip_eq]) fun ip' hip => by simp [hip]; rfl]
      simp [hbefore, hstate, marks, hr.ip_eq, htype.mark, turns]
    · intro filterName' st' hcall hst' hstate'
      cases hcall
      rw [hst] at hst'
      cases hst'
      rw [hfilter, Option.isSome_some]
  | @silenced filterName st hst hstate hfilter =>
    have hbefore := released_of_standing hst
    refine iff_of_false ?_ ?_
    · rw [@recorded_iff ip _ _ [] (by simp [Books.set, Books.takeId]) (by simp)
        fun ip' hip => by simp [hip]; rfl]
      simp [hbefore, hstate, marks, turns]
    · intro h
      have hsome := h filterName st rfl hst hstate
      rw [hfilter] at hsome
      cases hsome
  | @closed st hst hstate =>
    refine hnoStop ?_ (by simp)
    have hbefore := released_of_standing hst
    rw [@recorded_iff ip _ _ [] (by simp [Books.set]) (by simp) fun ip' hip => by simp [hip]]
    simp [hbefore, hstate, marks]
  | @interim st r hst hstate hr htype =>
    refine hnoStop ?_ (by simp)
    rw [@recorded_iff ip b (b.submit r) [r] rfl (by simp [hr.ip_eq]) fun ip' hip => rfl]
    simp [marks, htype, AcctType.mark]

end Event

/-! ## Runs -/

section Runs

variable {cfg : Config} {s s' : Controller} {ev : Event}

/-- **An event leaves the records it should** exactly if it is no stop of a released session that
asks for a filter that is not loaded. -/
theorem recorded_exec_iff (s : Controller) (ev : Event) :
    Recorded s.books (exec cfg s ev).books ↔ AudibleStop cfg s ev := by
  cases @exec_bookStep cfg s ev with
  | commit hop hs' =>
    rw [hs']
    refine iff_of_true (recorded_of_released rfl rfl) ?_
    intro ip hip
    simp [hop, Op.ip] at hip
  | @call ip b hip hopen hthere hact =>
    obtain ⟨hsubmitted, hreleased⟩ := opening_released hopen
    have hrecorded : Recorded s.books (exec cfg s ev).books ↔
        Recorded b (exec cfg s ev).books := by
      rw [Recorded, Recorded, hsubmitted, hreleased]
    rw [hrecorded, recorded_acting_iff hact]
    -- a session opened on the way is captured, so only the one that was there counts
    have hstanding : ∀ st, st.state = .released →
        (b.standing ip = some st ↔ s.books.standing ip = some st) := by
      intro st hstate
      cases hopen with
      | kept => exact Iff.rfl
      | opened hnone hfilter =>
        rw [hnone, Books.set_standing_self]
        refine iff_of_false ?_ (by simp)
        rintro ⟨⟩
        cases hstate
    constructor
    · intro h ip' hip' filterName st hcall hst hstate
      obtain rfl : ip = ip' := Option.some.inj (hip.symm.trans hip')
      exact h filterName st hcall ((hstanding st hstate).2 hst) hstate
    · intro h filterName st hcall hst hstate
      exact h ip hip filterName st hcall ((hstanding st hstate).1 hst) hstate

/-- The mark that the last record of an address should have. -/
def lastMark (released : Bool) : Mark := if released then .start else .stop

/-- The records of the address alternate, and the last one says whether it is released. -/
def Alternating (b : Books) (ip : UInt32) : Prop :=
  Alternates (marks ip b.submitted) ∧
    (Mark.stop :: marks ip b.submitted).getLast? = some (lastMark (b.released ip))

theorem alternating_init (ip : UInt32) : Alternating init.books ip :=
  ⟨List.isChain_singleton _, rfl⟩

/-- A mark that differs from the last one continues the alternation. -/
theorem alternates_concat {ms : List Mark} {m m' : Mark} (h : Alternates ms)
    (hlast : (Mark.stop :: ms).getLast? = some m') (hne : m' ≠ m) :
    Alternates (ms ++ [m]) ∧ (Mark.stop :: (ms ++ [m])).getLast? = some m := by
  rw [Alternates, ← List.cons_append]
  refine ⟨List.isChain_append.2 ⟨h, List.isChain_singleton m, ?_⟩, List.getLast?_concat⟩
  rintro x hx y ⟨⟩
  rw [hlast] at hx
  cases hx
  exact hne

/-- The records an event should leave keep the alternation. -/
theorem alternating_of_recorded {b b' : Books} {ip : UInt32} (h : Recorded b b')
    (hb : Alternating b ip) : Alternating b' ip := by
  obtain ⟨halternates, hlast⟩ := hb
  have hmarks := h ip
  rw [Alternating, hmarks]
  cases hbefore : b.released ip <;> cases hnow : b'.released ip <;> rw [hbefore] at hlast
  · rw [turns_self, List.append_nil]
    exact ⟨halternates, hlast⟩
  · exact alternates_concat halternates hlast (by decide)
  · exact alternates_concat halternates hlast (by decide)
  · rw [turns_self, List.append_nil]
    exact ⟨halternates, hlast⟩

/-- **START and STOP.** Every event of a run leaves just the records that its changes of state call
for, and the records of every address alternate, exactly if no stop of a released session asks for a
filter that is not loaded. -/
theorem alternation_iff {evs : List Event} (hrun : Run (Step cfg fun _ => True) init evs s) :
    (Run.Guarded (Step cfg fun _ => True)
        (fun s ev => Recorded s.books (exec cfg s ev).books) init evs ∧
      ∀ ip, Alternates (marks ip s.ledger.submitted)) ↔
      Run.Guarded (Step cfg fun _ => True) (AudibleStop cfg) init evs := by
  rw [← Run.Guarded.congr recorded_exec_iff]
  constructor
  · exact And.left
  · intro hguard
    refine ⟨hguard, ?_⟩
    intro ip
    have halternating : Alternating s.books ip := by
      refine hrun.invariant_of_guarded (P := fun s => Alternating s.books ip) ?_ hguard
        (alternating_init ip)
      rintro s ev s' ⟨-, rfl⟩ hrecorded h
      exact alternating_of_recorded hrecorded h
    exact halternating.1

/-- The only user is let in and sent back. -/
theorem alternation_iff_oneUser :
    (Run.Guarded (Step oneUserConfig fun _ => True)
        (fun s ev => Recorded s.books (exec oneUserConfig s ev).books) init [upPaid, downUser] ∧
      ∀ ip, Alternates (marks ip
        ([upPaid, downUser].foldl (exec oneUserConfig) init).ledger.submitted)) ↔
      Run.Guarded (Step oneUserConfig fun _ => True) (AudibleStop oneUserConfig) init
        [upPaid, downUser] :=
  alternation_iff (run_foldl init fun _ _ => trivial)

/-- Let in, sent back to a filter that is not loaded, and let in again, the user leaves two starts
in a row. -/
theorem alternation_lost :
    ¬ ∀ cfg evs s, Run (Step cfg fun op => ¬ op.IsBare) init evs s →
      ∀ ip, Alternates (marks ip s.ledger.submitted) := by
  intro h
  have halternates := h oneUserConfig [upPaid, downLost, upPaid] _ (run_foldl init (by decide))
    0x0a000001
  have hmarks : marks 0x0a000001
      ([upPaid, downLost, upPaid].foldl (exec oneUserConfig) init).ledger.submitted =
        [.start, .start] := by
    decide +kernel
  rw [hmarks, Alternates] at halternates
  simp at halternates

end Runs

end Sweetspot
