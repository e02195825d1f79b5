import Sweetspot.Filter.Match
import Sweetspot.Session.System

/-!
# Reloading the filters

The maintenance thread reads the filter directory again from time to time: it loads new files into
free slots, loads changed files again into their slots, and unloads the filters whose files are
gone.  Sessions refer to their filters by slot, and nobody tells them.  The names of the files stay
in the buffer of the directory, where later entries may overwrite them.

* `filterReload`: the pass over the directory.
* `Daemon`, `Daemon.exec`: the controller between reloads, with the name of the filter that each
  session was given.
* `Governed`: what a session should be under; `Listed`: the reloads that leave it so.
* `governed_iff`: sessions are governed all along a run exactly if all its reloads are such.
-/

namespace Sweetspot

open Controller

/-! ## Loading -/

/-- `sw_filter_set_t` with its `mtime`. -/
structure LoadedFilter where
  set : FilterSet
  mtime : ℤ

/-- `global_filter_set`, with the times. -/
abbrev FilterSlots := FilterSlot → Option LoadedFilter

/-- What the sessions and the matcher see of it. -/
def FilterSlots.loaded (slots : FilterSlots) : GlobalFilterSet := fun idx =>
  (slots idx).map LoadedFilter.set

/-- What reading and parsing a file gives: its two rulesets, and its `mtime` by then. -/
structure FilterText where
  rulesetIn : Ruleset
  rulesetOut : Ruleset
  mtime : ℤ

/-- `struct stat`. -/
structure FileStat where
  isDir : Bool
  mtime : ℤ

/-- `struct dirent`, with what `stat` gives for its name, if it succeeds.  No copy is made of
`d_name`: the pointer is kept, and the buffer it points into is filled again by later calls of
`readdir`.  So `kept` is what stands there once the directory is read, and `text` what
`sw_filter_load` reads and parses under that name, if it can. -/
structure DirEntry where
  ino : ℕ
  name : String
  stat : Option FileStat
  kept : String
  text : Option FilterText

/-- `sw_filter_fileinfo_t`, as it is by the time it is used, with the text. -/
structure FilterFile where
  filename : String
  mtime : ℤ
  text : Option FilterText

/-- `sw_filter_load`. -/
def filterLoad (file : FilterFile) : Option LoadedFilter :=
  file.text.map fun text => ⟨⟨file.filename, text.rulesetIn, text.rulesetOut⟩, text.mtime⟩

/-- The file of a directory entry, if it is one. -/
def fileOf (dirName : String) (dp : DirEntry) : Option FilterFile :=
  if dp.ino = 0 then none
  else if dp.name = "." ∨ dp.name = ".." ∨ dp.name.toList.getLast? = some '~' then none
  -- the buffer for the path has 1100 octets
  else if 1100 - 1 ≤ dirName.utf8ByteSize + 1 + dp.name.utf8ByteSize then none
  else
    match dp.stat with
    | none => none
    | some stat => if stat.isDir then none else some ⟨dp.kept, stat.mtime, dp.text⟩

/-- The loop over the directory; `none` when there is one more entry after the last slot. -/
def readFiles (dirName : String) : List DirEntry → List FilterFile → Option (List FilterFile)
  | [], files => some files
  | dp :: entries, files =>
    if SW_FILTER_SLOTS_MAX ≤ files.length then none
    else readFiles dirName entries (files ++ (fileOf dirName dp).toList)

/-- The name in a slot. -/
def FilterSlots.nameAt (slots : FilterSlots) (idx : FilterSlot) : Option String :=
  (slots idx).map fun f => f.set.name

/-- The first slot that passes a test. -/
def firstSlot (test : FilterSlot → Bool) : Option FilterSlot :=
  (List.finRange SW_FILTER_SLOTS_MAX).find? test

theorem firstSlot_some {test : FilterSlot → Bool} {idx : FilterSlot}
    (h : firstSlot test = some idx) : test idx :=
  List.find?_some h

-- another search of 512 slots
attribute [irreducible] firstSlot

/-- One file: a filter of its name is loaded again if the file is newer, or else a new filter goes
to the first free slot. -/
def reloadFile (slots : FilterSlots) (file : FilterFile) : FilterSlots :=
  let isOlder := fun idx =>
    slots.nameAt idx = some file.filename ∧ (slots idx).any fun f => f.mtime < file.mtime
  let target :=
    if (firstSlot fun idx => slots.nameAt idx = some file.filename).isSome then
      firstSlot fun idx => isOlder idx
    else firstSlot fun idx => (slots idx).isNone
  match target, filterLoad file with
  | some idx, some filter => Function.update slots idx (some filter)
  | _, _ => slots

/-- The second pass, over the slots: filters without a file are unloaded. -/
def unloadMissing (slots : FilterSlots) (files : List FilterFile) : FilterSlots := fun idx =>
  match slots idx with
  | some f => if f.set.name ∈ files.map FilterFile.filename then some f else none
  | none => none

/-- `sw_filter_reload` once it has the list of files. -/
def filterReload (slots : FilterSlots) (files : List FilterFile) : FilterSlots :=
  unloadMissing (files.foldl reloadFile slots) files

/-! ## What a reload does to a slot -/

section Reload

variable {slots : FilterSlots} {idx : FilterSlot} {file : FilterFile} {files : List FilterFile}
  {name : String}

theorem nameAt_eq_some : slots.nameAt idx = some name ↔
    ∃ f, slots idx = some f ∧ f.set.name = name := by
  simp [FilterSlots.nameAt]

/-- A file leaves the names where they are. -/
theorem nameAt_reloadFile (h : slots.nameAt idx = some name) :
    (reloadFile slots file).nameAt idx = some name := by
  unfold reloadFile
  simp only []
  split
  · rename_i target filter htarget hload
    by_cases hidx : idx = target
    · subst hidx
      have hname : filter.set.name = file.filename := by
        obtain ⟨text, -, rfl⟩ := Option.map_eq_some_iff.mp hload
        rfl
      split at htarget
      · -- loaded again under its own name
        have holder := firstSlot_some htarget
        simp only [decide_eq_true_eq] at holder
        have hsame : name = file.filename := Option.some.inj (h.symm.trans holder.1)
        rw [FilterSlots.nameAt, Function.update_self, Option.map_some, hname, hsame]
      · -- the slot was free
        have hfree := firstSlot_some htarget
        obtain ⟨f, hf, -⟩ := nameAt_eq_some.mp h
        rw [hf] at hfree
        cases hfree
    · rw [FilterSlots.nameAt, Function.update_of_ne hidx]
      exact h
  · exact h

theorem nameAt_foldl_reloadFile (h : slots.nameAt idx = some name) :
    (files.foldl reloadFile slots).nameAt idx = some name := by
  induction files generalizing slots with
  | nil => exact h
  | cons file files ih => exact ih (nameAt_reloadFile h)

/-- **A reload and one slot**: the name stays if there is a file of that name, or else it goes. -/
theorem nameAt_filterReload (h : slots.nameAt idx = some name) :
    (filterReload slots files).nameAt idx =
      if name ∈ files.map FilterFile.filename then some name else none := by
  obtain ⟨f, hf, hname⟩ := nameAt_eq_some.mp (@nameAt_foldl_reloadFile slots idx files name h)
  rw [FilterSlots.nameAt, filterReload, unloadMissing, hf]
  simp only [hname]
  split
  · rw [Option.map_some, hname]
  · rfl

end Reload

/-! ## The daemon between reloads -/

/-- `filter-dir` and `filter-reload-interval`. -/
structure FilterDir where
  dirName : String
  reloadInterval : ℤ

/-- The controller and the loaded filters.  `assigned` is no part of the source's state: the name of
the filter that the session of an address was given last. -/
structure Daemon where
  controller : Controller
  slots : FilterSlots
  filterLastReload : ℤ
  assigned : UInt32 → Option String

/-- Something the controller does, or a reload, with what `opendir` and `readdir` give. -/
inductive DaemonEvent
  | session (ev : Event)
  | reload (now : ℤ) (entries : Option (List DirEntry))

/-- The name of a loaded filter that a call gives a session with that `dn_filter_name`. -/
def calledName (cfg : Config) (dnFilterName : Option String) : SessionCall → Option String
  | .start filterName => if (startFilterId cfg filterName).isSome then some filterName else none
  | .stop filterName =>
    let (name, _) := stopFilterName cfg filterName dnFilterName
    if (filterGetId cfg.filters name).isSome then some name else none
  | _ => none

/-- The name of the filter that an event gives the session of its address, if it gives it one: by
the call it makes, or else by opening the session. -/
def assignedName (cfg : Config) (s : Controller) (ev : Event) (ip : UInt32) : Option String :=
  (calledName cfg ((s.sessions.retrieve ip).bind SessionEntry.dnFilterName) (s.call ev)).or
    (if (s.sessions.retrieve ip).isNone then some cfg.filterAnonymous else none)

namespace Daemon

/-- Nothing loaded, nobody there: `sw_filter_create` makes the first reload. -/
def init : Daemon := ⟨.init, fun _ => none, 0, fun _ => none⟩

section Exec

variable (cfg : Config) (dir : FilterDir) (w : Daemon)

/-- The configuration with what is loaded now. -/
def config : Config := { cfg with filters := w.slots.loaded }

/-- The files a reload works with; `none` if it does not come to that. -/
def reloadFiles (now : ℤ) (entries : Option (List DirEntry)) : Option (List FilterFile) :=
  if w.filterLastReload > now then none
  else entries.bind fun entries => readFiles dir.dirName entries []

/-- One event. -/
def exec : DaemonEvent → Daemon
  | .session ev =>
    { w with
      controller := w.controller.exec (w.config cfg) ev
      assigned := fun ip =>
        if ev.op.ip = some ip then
          (assignedName (w.config cfg) w.controller ev ip).or (w.assigned ip)
        else w.assigned ip }
  | .reload now entries =>
    { w with
      filterLastReload :=
        if w.filterLastReload > now then w.filterLastReload else now + dir.reloadInterval
      slots := ((reloadFiles dir w now entries).map (filterReload w.slots)).getD w.slots }

/-- The relay lets a packet go on: it matched nothing, or a rule that does not block.  What address
translation and shaping then do to it is not asked. -/
def Passes (m : Matched) : Prop :=
  m.1 = 0 ∨ m.1 = 1 ∧ ∃ r rs, m.2 = r :: rs ∧ r.verdict.action ≠ 2

/-- No packet of the session is passed. -/
def Unpassed (e : SessionEntry) : Prop :=
  ∀ now mode (a b : TupleIp) as bs,
    (match mode with | .inward => a.ip | .outward => b.ip) = e.ip →
      ¬ Passes (filterMatch w.slots.loaded
        (fun ip => (w.controller.sessionGetFilterId (w.config cfg) now ip).2) mode
        (.ip a :: as) (.ip b :: bs) [])

/-- The session has the rules of a loaded filter of the name it was given, or its packets are not
passed. -/
def Governed (e : SessionEntry) : Prop :=
  ∀ idx, e.filterId = some idx →
    match w.slots idx with
    | some f => w.assigned e.ip = some f.set.name
    | none => w.Unpassed cfg e

/-- Every session is governed. -/
def AllGoverned : Prop := ∀ e ∈ w.controller.sessions, w.Governed cfg e

/-- A reload lists a file for the filter of every session that has one, and the name of the file is
still there when the directory is read. -/
def Listed (w : Daemon) : DaemonEvent → Prop
  | .session _ => True
  | .reload now entries =>
    ∀ files, reloadFiles dir w now entries = some files → ∀ e ∈ w.controller.sessions,
      e.filterId ≠ none → ∃ file ∈ files, w.assigned e.ip = some file.filename

/-- One event of a run. -/
def Step (w : Daemon) (ev : DaemonEvent) (w' : Daemon) : Prop := w' = w.exec cfg dir ev

end Exec

/-! ## The invariant -/

/-- The filter of a session is loaded, under the name it was given. -/
def Named (slots : FilterSlots) (assigned : Option String) (st : Standing) : Prop :=
  ∀ idx, st.filterId = some idx → ∃ name, assigned = some name ∧ slots.nameAt idx = some name

def AllNamed (w : Daemon) : Prop :=
  ∀ ip st, w.controller.books.standing ip = some st → Named w.slots (w.assigned ip) st

section Invariant

variable {cfg : Config} {dir : FilterDir} {w w' : Daemon} {ip : UInt32}

theorem nameAt_of_filterGetId {slots : FilterSlots} {name : String} {idx : FilterSlot}
    (h : filterGetId slots.loaded name = some idx) : slots.nameAt idx = some name := by
  obtain ⟨f, hf, hname⟩ := filterGetId_eq_some h
  obtain ⟨g, hg, rfl⟩ := Option.map_eq_some_iff.mp hf
  exact nameAt_eq_some.mpr ⟨g, hg, hname⟩

/-- A session that is named after what it was given. -/
theorem named_of_filterGetId {slots : FilterSlots} {name : String} {filterId : FilterSlot}
    {st : Standing} (h : filterGetId slots.loaded name = some filterId)
    (hst : st.filterId = some filterId) : Named slots (some name) st := by
  intro idx hidx
  obtain rfl : filterId = idx := Option.some.inj (hst.symm.trans hidx)
  exact ⟨name, rfl, nameAt_of_filterGetId h⟩

/-- A session of the books has the `dn_filter_name` of the table. -/
theorem dnFilterName_of_opening {s : Controller} {b : Books} {st : Standing}
    (hopen : Opening cfg ip s.books b) (hst : b.standing ip = some st) :
    (s.sessions.retrieve ip).bind SessionEntry.dnFilterName = st.dnFilterName := by
  cases hopen with
  | kept =>
    obtain ⟨e, he, rfl⟩ := Option.map_eq_some_iff.mp hst
    rw [he]
    rfl
  | opened hnone hfilter =>
    rw [Books.set_standing_self] at hst
    cases hst
    rw [Option.map_eq_none_iff.mp hnone]
    rfl

/-- **Opening** gives the filter for strangers. -/
theorem named_opening {slots : FilterSlots} {s : Controller} {b : Books} {assigned : Option String}
    (hfilters : cfg.filters = slots.loaded) (hopen : Opening cfg ip s.books b)
    (h : ∀ st, s.books.standing ip = some st → Named slots assigned st) {st : Standing}
    (hst : b.standing ip = some st) :
    Named slots ((if (s.sessions.retrieve ip).isNone then some cfg.filterAnonymous else none).or
      assigned) st := by
  cases hopen with
  | kept =>
    have hthere : (s.sessions.retrieve ip).isNone = false := by
      obtain ⟨e, he, rfl⟩ := Option.map_eq_some_iff.mp hst
      rw [he]
      rfl
    rw [hthere]
    exact h st hst
  | opened hnone hfilter =>
    rw [Option.map_eq_none_iff.mp hnone]
    rw [Books.set_standing_self] at hst
    cases hst
    rw [hfilters] at hfilter
    exact named_of_filterGetId hfilter rfl

/-- A released session is named after what the start gave it, if that is a filter. -/
theorem named_of_startFilterId {slots : FilterSlots} {filterName : String} {filterId : FilterId}
    {st : Standing} {assigned : Option String} {dnFilterName : Option String}
    (hfilters : cfg.filters = slots.loaded)
    (h : startFilterId cfg filterName = some filterId) (hst : st.filterId = filterId) :
    Named slots ((calledName cfg dnFilterName (.start filterName)).or assigned) st := by
  rw [calledName, h]
  intro idx hidx
  unfold startFilterId at h
  split at h
  · cases h
    rw [hst] at hidx
    cases hidx
  · obtain ⟨filterSlot, hslot, rfl⟩ := Option.map_eq_some_iff.mp h
    rw [hfilters] at hslot
    exact named_of_filterGetId hslot hst idx hidx

/-- **A call of the session module** leaves a session named after what it was given. -/
theorem named_acting {slots : FilterSlots} {s : Controller} {ev : Event} {b b' : Books}
    {assigned : Option String} (hfilters : cfg.filters = slots.loaded)
    (hopen : Opening cfg ip s.books b) (hact : Acting cfg ip b (s.call ev) b')
    (h : ∀ st, s.books.standing ip = some st → Named slots assigned st) {st : Standing}
    (hst : b'.standing ip = some st) :
    Named slots ((assignedName cfg s ev ip).or assigned) st := by
  have hopened := fun st => @named_opening cfg ip slots s b assigned hfilters hopen h st
  have hdn := fun st => @dnFilterName_of_opening cfg ip s b st hopen
  rw [assignedName, Option.or_assoc]
  generalize s.call ev = call at hact ⊢
  cases hact with
  | nothing | lookup | spared => exact hopened st hst
  | refused hnone =>
    rw [hnone] at hst
    cases hst
  | unknown hfilter =>
    rw [calledName, hfilter]
    exact hopened st hst
  | @again filterName st₁ filterId hst₁ hstate hfilter =>
    rw [Books.set_standing_self] at hst
    cases hst
    exact named_of_startFilterId hfilters hfilter rfl
  | @released filterName st₁ filterId r hst₁ hstate hfilter hr htype =>
    rw [Books.submit_standing, Books.set_standing_self] at hst
    cases hst
    exact named_of_startFilterId hfilters hfilter rfl
  | @captive filterName st₁ hst₁ hstate =>
    rw [Books.set_standing_self] at hst
    cases hst
    rw [hdn st₁ hst₁, calledName]
    cases hfilter : filterGetId cfg.filters (stopFilterName cfg filterName st₁.dnFilterName).1 with
    | none =>
      -- the old filter stays
      simp only [hfilter]
      exact hopened st₁ hst₁
    | some filterId =>
      simp only [hfilter]
      rw [hfilters] at hfilter
      exact named_of_filterGetId hfilter rfl
  | @recaptured filterName st₁ filterId r hst₁ hstate hfilter hr htype =>
    rw [Books.submit_standing, Books.set_standing_self] at hst
    cases hst
    rw [hdn st₁ hst₁, calledName]
    simp only [hfilter]
    rw [hfilters] at hfilter
    exact named_of_filterGetId hfilter rfl
  | @silenced filterName st₁ hst₁ hstate hfilter =>
    rw [Books.set_standing_self] at hst
    cases hst
    rw [hdn st₁ hst₁, calledName]
    simp only [hfilter]
    exact hopened st₁ hst₁
  | closed hst₁ hstate =>
    rw [Books.set_standing_self] at hst
    cases hst
  | interim hst₁ hstate hr htype => exact hopened st hst

theorem allNamed_init : AllNamed init := by
  rintro ip st ⟨⟩

/-- A session event keeps the sessions named. -/
theorem allNamed_session (ev : Event) (h : AllNamed w) :
    AllNamed (w.exec cfg dir (.session ev)) := by
  intro ip st hst
  have hstep := @exec_bookStep (w.config cfg) w.controller ev
  show Named w.slots (if ev.op.ip = some ip then
    (assignedName (w.config cfg) w.controller ev ip).or (w.assigned ip) else w.assigned ip) st
  cases hstep with
  | commit hop hs' =>
    have hnone : ev.op.ip = none := by
      rw [hop]
      rfl
    rw [hnone, if_neg (by simp)]
    have hsame : ((w.controller.exec (w.config cfg) ev).books.standing) =
        w.controller.books.standing := by
      rw [hs']
      rfl
    refine h ip st ?_
    rw [← hsame]
    exact hst
  | @call ip' b hip hopen hthere hact =>
    rw [hip]
    by_cases hsame : ip = ip'
    · subst hsame
      rw [if_pos rfl]
      exact named_acting rfl hopen hact (h ip) hst
    · rw [if_neg (by simpa using Ne.symm hsame)]
      refine h ip st ?_
      rw [← hopen.standing_of_ne hsame, ← hact.standing_of_ne hsame]
      exact hst

/-- So does a reload that lists their filters. -/
theorem allNamed_reload {now : ℤ} {entries : Option (List DirEntry)}
    (hlisted : Listed dir w (.reload now entries)) (h : AllNamed w) :
    AllNamed (w.exec cfg dir (.reload now entries)) := by
  intro ip st hst idx hidx
  obtain ⟨name, hassigned, hname⟩ := h ip st hst idx hidx
  refine ⟨name, hassigned, ?_⟩
  show FilterSlots.nameAt
    (((reloadFiles dir w now entries).map (filterReload w.slots)).getD w.slots) idx = some name
  cases hfiles : reloadFiles dir w now entries with
  | none => exact hname
  | some files =>
    rw [Option.map_some, Option.getD_some, nameAt_filterReload hname, if_pos]
    obtain ⟨e, he, rfl⟩ := Option.map_eq_some_iff.mp hst
    obtain rfl := entry_key he
    have hhas : e.filterId ≠ none := by
      have hfilter : e.filterId = some idx := hidx
      rw [hfilter]
      exact Option.some_ne_none idx
    obtain ⟨file, hfile, hname'⟩ := hlisted files hfiles e (mem_iff_retrieve.mpr he) hhas
    rw [hassigned] at hname'
    cases hname'
    exact List.mem_map_of_mem hfile

/-- Named sessions are governed. -/
theorem allGoverned_of_allNamed (h : AllNamed w) : AllGoverned cfg w := by
  intro e he idx hidx
  rw [mem_iff_retrieve] at he
  obtain ⟨name, hassigned, hname⟩ := h e.ip e.standing (books_standing he) idx hidx
  obtain ⟨f, hf, rfl⟩ := nameAt_eq_some.mp hname
  rw [hf]
  exact hassigned

/-- **An empty slot lets packets pass**: a session left with one is not governed. -/
theorem not_unpassed {e : SessionEntry} {idx : FilterSlot} (he : e ∈ w.controller.sessions)
    (hidx : e.filterId = some idx) (hslot : w.slots idx = none) : ¬ w.Unpassed cfg e := by
  intro hunpassed
  refine hunpassed 0 .inward ⟨e.ip, 0, 0⟩ ⟨0, 0, 0⟩ [] [] rfl (Or.inl ?_)
  rw [mem_iff_retrieve] at he
  have hfilter : filterGet w.slots.loaded .inward (some idx) = [] := by
    simp [filterGet, FilterSlots.loaded, hslot]
  have hprotocol : (TupleNode.ip ⟨e.ip, 0, 0⟩).protocol = (TupleNode.ip ⟨0, 0, 0⟩).protocol := rfl
  rw [filterMatch, if_neg (not_not.mpr hprotocol)]
  simp only [protoMismatch, Bool.false_eq_true, if_false, ipFilterMatch,
    sessionGetFilterId_of_found he, hidx, hfilter, ipLoop]

/-- A reload after which the sessions are governed listed their filters. -/
theorem listed_of_allGoverned {now : ℤ} {entries : Option (List DirEntry)} (h : AllNamed w)
    (hgoverned : AllGoverned cfg (w.exec cfg dir (.reload now entries))) :
    Listed dir w (.reload now entries) := by
  intro files hfiles e he hhas
  obtain ⟨idx, hidx⟩ := Option.ne_none_iff_exists'.mp hhas
  have hst := books_standing (mem_iff_retrieve.mp he)
  obtain ⟨name, hassigned, hname⟩ := h e.ip e.standing hst idx hidx
  have hslots : (w.exec cfg dir (.reload now entries)).slots = filterReload w.slots files := by
    show ((reloadFiles dir w now entries).map (filterReload w.slots)).getD w.slots = _
    rw [hfiles]
    rfl
  have hafter := @nameAt_filterReload w.slots idx files name hname
  rw [← hslots] at hafter
  by_cases hmem : name ∈ files.map FilterFile.filename
  · obtain ⟨file, hfile, rfl⟩ := List.mem_map.mp hmem
    exact ⟨file, hfile, hassigned⟩
  · rw [if_neg hmem] at hafter
    have hslot : (w.exec cfg dir (.reload now entries)).slots idx = none :=
      Option.map_eq_none_iff.mp hafter
    have hunpassed := hgoverned e he idx hidx
    rw [hslot] at hunpassed
    exact absurd hunpassed (not_unpassed he hidx hslot)

end Invariant

/-! ## Runs -/

section Runs

variable {cfg : Config} {dir : FilterDir} {w : Daemon}

theorem run_foldl (w : Daemon) (evs : List DaemonEvent) :
    Run (Step cfg dir) w evs (evs.foldl (Daemon.exec cfg dir) w) := by
  induction evs generalizing w with
  | nil => exact .nil w
  | cons ev evs ih => exact .cons rfl (ih _)

/-- **Sessions keep their filters.**  In a run of session operations and reloads, sessions stay
under the filters they were given exactly if every reload that goes through lists a file for each of
them, under a name that is not overwritten meanwhile. -/
theorem governed_iff {evs : List DaemonEvent} (hrun : Run (Step cfg dir) init evs w) :
    Run.Always (Step cfg dir) (AllGoverned cfg) init evs ↔
      Run.Guarded (Step cfg dir) (Listed dir) init evs := by
  refine Run.always_iff_guarded (I := AllNamed) ?_ (fun w => allGoverned_of_allNamed) ?_ ?_ hrun
    allNamed_init
  · rintro w ev w₁ w₂ rfl rfl
    rfl
  · rintro w (ev | ⟨now, entries⟩) w' rfl hlisted h
    · exact allNamed_session ev h
    · exact allNamed_reload hlisted h
  · rintro w (ev | ⟨now, entries⟩) w' rfl h hgoverned
    · trivial
    · exact listed_of_allGoverned h hgoverned

/-- The filter for strangers, without rules. -/
def anonymousFile : DirEntry :=
  ⟨1, "anonymous", some ⟨false, 1⟩, "anonymous", some ⟨[], [], 1⟩⟩

/-- A directory read once an hour. -/
def hourly : FilterDir := ⟨"filters", 3600⟩

/-- The filter is loaded, and the only user is there. -/
def userArrives : List DaemonEvent :=
  [.reload 0 (some [anonymousFile]), .session ⟨1, .lookup 0x0a000001⟩]

theorem governed_iff_userArrives :
    Run.Always (Step oneUserConfig hourly) (AllGoverned oneUserConfig) init userArrives ↔
      Run.Guarded (Step oneUserConfig hourly) (Listed hourly) init userArrives :=
  governed_iff (run_foldl init userArrives)

/-- Then the file is removed, and the user is under no rules. -/
theorem governed_unlisted :
    ¬ ∀ cfg dir evs w, Run (Step cfg dir) init evs w → AllGoverned cfg w := by
  intro h
  obtain ⟨w, hw⟩ : ∃ w, w = (userArrives ++ [DaemonEvent.reload 3600 (some [])]).foldl
    (Daemon.exec oneUserConfig hourly) init := ⟨_, rfl⟩
  have hgoverned := h oneUserConfig hourly _ w (hw ▸ run_foldl init _)
  have hentry : (w.controller.sessions.retrieve 0x0a000001).map (fun e => (e.ip, e.filterId)) =
      some (0x0a000001, some ⟨0, by decide⟩) := by
    rw [hw]
    decide +kernel
  have hslot : (w.slots ⟨0, by decide⟩).isNone = true := by
    rw [hw]
    decide +kernel
  obtain ⟨e, he, hfields⟩ := Option.map_eq_some_iff.mp hentry
  simp only [Prod.mk.injEq] at hfields
  obtain ⟨hip, hfilter⟩ := hfields
  have hmem : e ∈ w.controller.sessions := by rwa [mem_iff_retrieve, hip]
  have hunpassed := hgoverned e hmem _ hfilter
  rw [Option.isNone_iff_eq_none.mp hslot] at hunpassed
  exact not_unpassed hmem hfilter (Option.isNone_iff_eq_none.mp hslot) hunpassed

end Runs

end Daemon

end Sweetspot
