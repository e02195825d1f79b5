import Sweetspot.Filter.Reload

/-!
# Reloads converge

A reload updates what is loaded, loads what is new as far as slots are free, and unloads what is
gone, in this order: the slots that it frees are there for the next one only.  So two reloads bring
the slots in line with the directory, and a third finds nothing to do.  All of this as long as the
names of the files, of which only pointers are kept, stay where `readdir` put them.

* `FileOutcome`: what one file does to the slots.
* `renewed`, `foldl_reloadFile_of_some`, `foldl_reloadFile_of_none`: what all of them do to a slot.
* `exists_foldl_reloadFile`: with room for all of them, every file that loads is loaded.
* `Listing`, `ReloadStep`, `Dated`: the histories of a directory.
* `Listing.Readable`: the names stay where they were put.
* `Converged`, `filterReload_converges`: what holds after every such history.
* `filterReload_overwritten`: they do not in a directory that does not fit into its buffer.
-/

namespace Sweetspot

open Controller Daemon

/-! ## One file -/

/-- No two slots have the same name. -/
def FilterSlots.Distinct (slots : FilterSlots) : Prop :=
  ∀ i j name, slots.nameAt i = some name → slots.nameAt j = some name → i = j

/-- There is a filter of that name. -/
def FilterSlots.Has (slots : FilterSlots) (name : String) : Prop :=
  ∃ i, slots.nameAt i = some name

theorem firstSlot_isSome {test : FilterSlot → Bool} : (firstSlot test).isSome ↔ ∃ i, test i := by
  unfold firstSlot
  simp [List.find?_isSome]

theorem firstSlot_eq_none {test : FilterSlot → Bool} : firstSlot test = none ↔ ∀ i, ¬ test i := by
  unfold firstSlot
  simp [List.find?_eq_none]

section Reload

variable {slots slots' : FilterSlots} {file : FilterFile} {files : List FilterFile}
  {f f' : LoadedFilter} {i j : FilterSlot} {name : String}

theorem filterLoad_name (h : filterLoad file = some f) : f.set.name = file.filename := by
  obtain ⟨text, -, rfl⟩ := Option.map_eq_some_iff.1 h
  rfl

theorem nameAt_of_some (h : slots i = some f) : slots.nameAt i = some f.set.name := by
  rw [FilterSlots.nameAt, h, Option.map_some]

/-- What one file does: nothing, or its filter is loaded again, or loaded. -/
inductive FileOutcome (slots : FilterSlots) (file : FilterFile) : FilterSlots → Prop
  | broken (h : filterLoad file = none) : FileOutcome slots file slots
  | recent (i : FilterSlot) (f : LoadedFilter) (hf : slots i = some f)
    (hname : f.set.name = file.filename) (htime : file.mtime ≤ f.mtime) :
    FileOutcome slots file slots
  | renewed (i : FilterSlot) (f f' : LoadedFilter) (hf : slots i = some f)
    (hname : f.set.name = file.filename) (htime : f.mtime < file.mtime)
    (hload : filterLoad file = some f') :
    FileOutcome slots file (Function.update slots i (some f'))
  | loaded (i : FilterSlot) (f' : LoadedFilter) (hnew : ¬ slots.Has file.filename)
    (hfree : slots i = none) (hload : filterLoad file = some f') :
    FileOutcome slots file (Function.update slots i (some f'))
  | crowded (hnew : ¬ slots.Has file.filename) (hfull : ∀ i, slots i ≠ none) :
    FileOutcome slots file slots

theorem reloadFile_outcome (hdistinct : slots.Distinct) :
    FileOutcome slots file (reloadFile slots file) := by
  unfold reloadFile
  dsimp only
  cases hload : filterLoad file with
  | none =>
    split
    · rename_i hnone
      cases hnone
    · exact .broken hload
  | some f' =>
    by_cases hhas : slots.Has file.filename
    · have hsome : (firstSlot fun idx => slots.nameAt idx = some file.filename).isSome := by
        rw [firstSlot_isSome]
        obtain ⟨i, hi⟩ := hhas
        exact ⟨i, by simpa using hi⟩
      rw [if_pos hsome]
      obtain ⟨i, hi⟩ := hhas
      obtain ⟨f, hf, hname⟩ := nameAt_eq_some.1 hi
      cases hfirst : firstSlot fun idx => decide (slots.nameAt idx = some file.filename ∧
          ((slots idx).any fun f => decide (f.mtime < file.mtime)) = true) with
      | none =>
        have hno := firstSlot_eq_none.1 hfirst i
        refine .recent i f hf hname ?_
        simpa [hi, hf] using hno
      | some j =>
        have hyes := firstSlot_some hfirst
        simp only [decide_eq_true_eq] at hyes
        obtain rfl := hdistinct i j _ hi hyes.1
        refine .renewed i f f' hf hname ?_ hload
        simpa [hf] using hyes.2
    · have hnone : (firstSlot fun idx => slots.nameAt idx = some file.filename).isSome = false := by
        rw [← Bool.not_eq_true, firstSlot_isSome]
        rintro ⟨i, hi⟩
        exact hhas ⟨i, by simpa using hi⟩
      rw [hnone, if_neg Bool.false_ne_true]
      cases hfirst : firstSlot fun idx => (slots idx).isNone with
      | none =>
        refine .crowded hhas ?_
        intro i
        simpa using firstSlot_eq_none.1 hfirst i
      | some j => exact .loaded j f' hhas (by simpa using firstSlot_some hfirst) hload

/-- Where the name of a file can be afterwards. -/
theorem FileOutcome.nameAt (h : FileOutcome slots file slots') (hi : slots'.nameAt i = some name) :
    slots.nameAt i = some name ∨ name = file.filename ∧ ¬ slots.Has name := by
  cases h with
  | broken | recent | crowded => exact .inl hi
  | renewed j f f' hf hname htime hload =>
    by_cases hij : i = j
    · subst hij
      rw [FilterSlots.nameAt, Function.update_self, Option.map_some, filterLoad_name hload] at hi
      rw [← hi, nameAt_of_some hf, hname]
      exact .inl rfl
    · rw [FilterSlots.nameAt, Function.update_of_ne hij] at hi
      exact .inl hi
  | loaded j f' hnew hfree hload =>
    by_cases hij : i = j
    · subst hij
      rw [FilterSlots.nameAt, Function.update_self, Option.map_some, filterLoad_name hload] at hi
      obtain rfl := Option.some.inj hi
      exact .inr ⟨rfl, hnew⟩
    · rw [FilterSlots.nameAt, Function.update_of_ne hij] at hi
      exact .inl hi

/-- A file keeps the names distinct. -/
theorem FileOutcome.distinct (h : FileOutcome slots file slots') (hdistinct : slots.Distinct) :
    slots'.Distinct := by
  intro i j name hi hj
  rcases h.nameAt hi with hi' | ⟨-, hno⟩
  · rcases h.nameAt hj with hj' | ⟨-, hno⟩
    · exact hdistinct i j name hi' hj'
    · exact absurd ⟨i, hi'⟩ hno
  · rcases h.nameAt hj with hj' | ⟨rfl, -⟩
    · exact absurd ⟨j, hj'⟩ hno
    · -- only one slot was written
      cases h with
      | broken | recent | crowded => exact absurd ⟨i, hi⟩ hno
      | renewed k f f' hf hname => exact absurd ⟨k, by rw [nameAt_of_some hf, hname]⟩ hno
      | loaded k f' hnew hfree hload =>
        have hk : ∀ l, FilterSlots.nameAt (Function.update slots k (some f')) l =
            some file.filename → l = k := by
          intro l hl
          by_contra hne
          rw [FilterSlots.nameAt, Function.update_of_ne hne] at hl
          exact hno ⟨l, hl⟩
        rw [hk i hi, hk j hj]

theorem distinct_foldl_reloadFile (hdistinct : slots.Distinct) :
    (files.foldl reloadFile slots).Distinct := by
  induction files generalizing slots with
  | nil => exact hdistinct
  | cons file files ih => exact ih ((reloadFile_outcome hdistinct).distinct hdistinct)

/-! ## All files -/

/-- What becomes of a loaded filter: it is loaded again if its file is newer and loads. -/
def renewed (files : List FilterFile) (f : LoadedFilter) : LoadedFilter :=
  match files.find? fun file => file.filename = f.set.name with
  | some file => if f.mtime < file.mtime then (filterLoad file).getD f else f
  | none => f

theorem renewed_of_mem (hnodup : (files.map FilterFile.filename).Nodup) (hfile : file ∈ files)
    (hname : f.set.name = file.filename) :
    renewed files f = if f.mtime < file.mtime then (filterLoad file).getD f else f := by
  have hfind : files.find? (fun file => file.filename = f.set.name) = some file := by
    rw [hname]
    induction files with
    | nil => cases hfile
    | cons file' files ih =>
      rw [List.map_cons, List.nodup_cons] at hnodup
      rcases List.mem_cons.1 hfile with rfl | hmem
      · rw [List.find?_cons_of_pos (by simp)]
      · have hne : ¬ file'.filename = file.filename := by
          intro h
          exact hnodup.1 (h ▸ List.mem_map_of_mem hmem)
        rw [List.find?_cons_of_neg (by simpa using hne)]
        exact ih hnodup.2 hmem
  rw [renewed, hfind]

theorem renewed_of_not_mem (h : f.set.name ∉ files.map FilterFile.filename) :
    renewed files f = f := by
  have hfind : files.find? (fun file => file.filename = f.set.name) = none := by
    rw [List.find?_eq_none]
    intro file hfile hname
    exact h (List.mem_map.2 ⟨file, hfile, by simpa using hname⟩)
  rw [renewed, hfind]

theorem renewed_name : (renewed files f).set.name = f.set.name := by
  unfold renewed
  cases h : files.find? fun file => file.filename = f.set.name with
  | none => rfl
  | some file =>
    have hname : file.filename = f.set.name := by simpa using List.find?_some h
    dsimp only
    split
    · cases hload : filterLoad file with
      | none => rfl
      | some f' => exact (filterLoad_name hload).trans hname
    · rfl

/-- One file and an occupied slot. -/
theorem reloadFile_of_some (hdistinct : slots.Distinct) (hi : slots i = some f) :
    reloadFile slots file i = some (renewed [file] f) := by
  have hother : f.set.name ≠ file.filename → renewed [file] f = f := by
    intro hne
    exact renewed_of_not_mem (by simpa using hne)
  have hsame : f.set.name = file.filename →
      renewed [file] f = if f.mtime < file.mtime then (filterLoad file).getD f else f := by
    intro hname
    exact renewed_of_mem (by simp) List.mem_cons_self hname
  have houtcome := @reloadFile_outcome slots file hdistinct
  generalize reloadFile slots file = slots' at houtcome ⊢
  by_cases hname : f.set.name = file.filename
  · rw [hsame hname]
    cases houtcome with
    | broken h => simp [hi, h]
    | recent j f₁ hf₁ hname₁ htime =>
      obtain rfl := hdistinct i j _ (nameAt_of_some hi) (by rw [nameAt_of_some hf₁, hname₁, hname])
      obtain rfl := Option.some.inj (hi.symm.trans hf₁)
      rw [hi, if_neg (not_lt.2 htime)]
    | renewed j f₁ f' hf₁ hname₁ htime hload =>
      obtain rfl := hdistinct i j _ (nameAt_of_some hi) (by rw [nameAt_of_some hf₁, hname₁, hname])
      obtain rfl := Option.some.inj (hi.symm.trans hf₁)
      rw [Function.update_self, if_pos htime, hload, Option.getD_some]
    | loaded j f' hnew => exact absurd ⟨i, by rw [nameAt_of_some hi, hname]⟩ hnew
    | crowded hnew => exact absurd ⟨i, by rw [nameAt_of_some hi, hname]⟩ hnew
  · rw [hother hname]
    cases houtcome with
    | broken | recent | crowded => exact hi
    | renewed j f₁ f' hf₁ hname₁ htime hload =>
      have hij : i ≠ j := by
        rintro rfl
        obtain rfl := Option.some.inj (hi.symm.trans hf₁)
        exact hname hname₁
      rw [Function.update_of_ne hij, hi]
    | loaded j f' hnew hfree hload =>
      have hij : i ≠ j := by
        rintro rfl
        rw [hi] at hfree
        cases hfree
      rw [Function.update_of_ne hij, hi]

/-- **The pass over the files and an occupied slot.** -/
theorem foldl_reloadFile_of_some (hnodup : (files.map FilterFile.filename).Nodup)
    (hdistinct : slots.Distinct) (hi : slots i = some f) :
    files.foldl reloadFile slots i = some (renewed files f) := by
  induction files generalizing slots f with
  | nil => exact hi
  | cons file files ih =>
    rw [List.map_cons, List.nodup_cons] at hnodup
    have hstep := @reloadFile_of_some slots file f i hdistinct hi
    rw [List.foldl_cons, ih hnodup.2 ((reloadFile_outcome hdistinct).distinct hdistinct) hstep]
    congr 1
    by_cases hname : file.filename = f.set.name
    · -- no other file has the name
      have hrest : (renewed [file] f).set.name ∉ files.map FilterFile.filename := by
        rw [renewed_name, ← hname]
        exact hnodup.1
      rw [renewed_of_not_mem hrest, renewed, renewed, List.find?_cons_of_pos (by simpa using hname),
        List.find?_cons_of_pos (by simpa using hname)]
    · have hfirst : f.set.name ∉ [file].map FilterFile.filename := by simpa using Ne.symm hname
      rw [renewed_of_not_mem hfirst, renewed, renewed,
        List.find?_cons_of_neg (by simpa using hname)]

theorem has_reloadFile (h : slots.Has name) : (reloadFile slots file).Has name := by
  obtain ⟨i, hi⟩ := h
  exact ⟨i, nameAt_reloadFile hi⟩

/-- **The pass over the files and a free slot**: what it is given comes from a file of a new
name. -/
theorem foldl_reloadFile_of_none (hnodup : (files.map FilterFile.filename).Nodup)
    (hdistinct : slots.Distinct) (hi : slots i = none)
    (hf : files.foldl reloadFile slots i = some f) :
    ∃ file ∈ files, filterLoad file = some f ∧ ¬ slots.Has file.filename := by
  induction files generalizing slots with
  | nil =>
    rw [List.foldl_nil, hi] at hf
    cases hf
  | cons file files ih =>
    rw [List.map_cons, List.nodup_cons] at hnodup
    have houtcome := @reloadFile_outcome slots file hdistinct
    have hdistinct' := houtcome.distinct hdistinct
    cases hstep : reloadFile slots file i with
    | none =>
      obtain ⟨file', hfile', hload, hnew⟩ := ih hnodup.2 hdistinct' hstep hf
      exact ⟨file', List.mem_cons_of_mem _ hfile', hload, fun h => hnew (has_reloadFile h)⟩
    | some f' =>
      have hafter := foldl_reloadFile_of_some hnodup.2 hdistinct' hstep
      have heq : renewed files f' = f := Option.some.inj (hafter.symm.trans hf)
      have hloaded : filterLoad file = some f' ∧ ¬ slots.Has file.filename := by
        generalize reloadFile slots file = slots' at houtcome hstep
        cases houtcome with
        | broken | recent | crowded =>
          rw [hi] at hstep
          cases hstep
        | renewed j f₁ f₂ hf₁ hname htime hload =>
          have hij : i ≠ j := by
            rintro rfl
            rw [hi] at hf₁
            cases hf₁
          rw [Function.update_of_ne hij, hi] at hstep
          cases hstep
        | loaded j f₂ hnew hfree hload =>
          by_cases hij : i = j
          · subst hij
            rw [Function.update_self] at hstep
            obtain rfl := Option.some.inj hstep
            exact ⟨hload, hnew⟩
          · rw [Function.update_of_ne hij, hi] at hstep
            cases hstep
      have hrest : f'.set.name ∉ files.map FilterFile.filename := by
        rw [filterLoad_name hloaded.1]
        exact hnodup.1
      rw [renewed_of_not_mem hrest] at heq
      exact ⟨file, List.mem_cons_self, heq ▸ hloaded.1, hloaded.2⟩

theorem has_foldl_reloadFile_of_has (h : slots.Has name) :
    (files.foldl reloadFile slots).Has name := by
  obtain ⟨i, hi⟩ := h
  exact ⟨i, nameAt_foldl_reloadFile hi⟩

/-- Slots that are all occupied, under names from a list, take a list as long. -/
theorem slotsMax_le_length {names : List String} (hdistinct : slots.Distinct)
    (hfull : ∀ i, slots i ≠ none) (hnames : ∀ name, slots.Has name → name ∈ names) :
    SW_FILTER_SLOTS_MAX ≤ names.length := by
  have hname : ∀ i, ∃ name, slots.nameAt i = some name := by
    intro i
    obtain ⟨f, hf⟩ := Option.ne_none_iff_exists'.1 (hfull i)
    exact ⟨_, nameAt_of_some hf⟩
  choose nameOf hnameOf using hname
  have hinjective : Function.Injective nameOf := by
    intro i j hij
    exact hdistinct i j _ (hnameOf i) (hij ▸ hnameOf j)
  have hnodup : ((List.finRange SW_FILTER_SLOTS_MAX).map nameOf).Nodup :=
    (List.nodup_finRange _).map hinjective
  have hsubset : (List.finRange SW_FILTER_SLOTS_MAX).map nameOf ⊆ names := by
    intro name hmem
    obtain ⟨i, -, rfl⟩ := List.mem_map.1 hmem
    exact hnames _ ⟨i, hnameOf i⟩
  have hle := (List.subperm_of_subset hnodup hsubset).length_le
  rwa [List.length_map, List.length_finRange] at hle

/-- **With room for all of them, every file that loads is loaded.** -/
theorem has_foldl_reloadFile {names : List String} (hroom : names.length < SW_FILTER_SLOTS_MAX)
    (hdistinct : slots.Distinct) (hslots : ∀ name, slots.Has name → name ∈ names)
    (hfiles : ∀ file ∈ files, file.filename ∈ names) (hfile : file ∈ files)
    (hload : (filterLoad file).isSome) : (files.foldl reloadFile slots).Has file.filename := by
  induction files generalizing slots with
  | nil => cases hfile
  | cons file' files ih =>
    have houtcome := @reloadFile_outcome slots file' hdistinct
    rw [List.foldl_cons]
    rcases List.mem_cons.1 hfile with rfl | hmem
    · refine has_foldl_reloadFile_of_has ?_
      generalize reloadFile slots file = slots' at houtcome ⊢
      cases houtcome with
      | broken h =>
        rw [h] at hload
        cases hload
      | recent i f hf hname => exact ⟨i, by rw [nameAt_of_some hf, hname]⟩
      | renewed i f f' hf hname htime hload' =>
        refine ⟨i, ?_⟩
        rw [FilterSlots.nameAt, Function.update_self, Option.map_some, filterLoad_name hload']
      | loaded i f' hnew hfree hload' =>
        refine ⟨i, ?_⟩
        rw [FilterSlots.nameAt, Function.update_self, Option.map_some, filterLoad_name hload']
      | crowded hnew hfull =>
        exact absurd (slotsMax_le_length hdistinct hfull hslots) (not_le.2 hroom)
    · refine ih (houtcome.distinct hdistinct) ?_ ?_ hmem
      · rintro name ⟨i, hi⟩
        rcases houtcome.nameAt hi with hi' | ⟨rfl, -⟩
        · exact hslots name ⟨i, hi'⟩
        · exact hfiles file' List.mem_cons_self
      · intro file'' hfile''
        exact hfiles file'' (List.mem_cons_of_mem _ hfile'')

/-! ## A whole reload -/

theorem unloadMissing_eq_some : unloadMissing slots files i = some f ↔
    slots i = some f ∧ f.set.name ∈ files.map FilterFile.filename := by
  unfold unloadMissing
  cases slots i with
  | none => simp
  | some f' =>
    dsimp only
    split
    · rename_i hmem
      constructor
      · rintro ⟨⟩
        exact ⟨rfl, hmem⟩
      · rintro ⟨h, -⟩
        exact h
    · rename_i hmem
      constructor
      · rintro ⟨⟩
      · rintro ⟨⟨⟩, h⟩
        exact absurd h hmem

/-- What was in a slot before, if anything, and what is in it after a reload. -/
theorem filterReload_eq_some (hnodup : (files.map FilterFile.filename).Nodup)
    (hdistinct : slots.Distinct) (hf : filterReload slots files i = some f) :
    (∃ f₀, slots i = some f₀ ∧ f = renewed files f₀) ∨
      slots i = none ∧ ∃ file ∈ files, filterLoad file = some f ∧ ¬ slots.Has file.filename := by
  obtain ⟨hf, -⟩ := unloadMissing_eq_some.1 hf
  cases hi : slots i with
  | none => exact .inr ⟨rfl, foldl_reloadFile_of_none hnodup hdistinct hi hf⟩
  | some f₀ =>
    rw [foldl_reloadFile_of_some hnodup hdistinct hi] at hf
    exact .inl ⟨f₀, rfl, (Option.some.inj hf).symm⟩

theorem filterReload_of_some (hnodup : (files.map FilterFile.filename).Nodup)
    (hdistinct : slots.Distinct) (hi : slots i = some f)
    (hmem : f.set.name ∈ files.map FilterFile.filename) :
    filterReload slots files i = some (renewed files f) := by
  refine unloadMissing_eq_some.2 ⟨foldl_reloadFile_of_some hnodup hdistinct hi, ?_⟩
  rwa [renewed_name]

theorem distinct_filterReload (hdistinct : slots.Distinct) :
    (filterReload slots files).Distinct := by
  have hstays : ∀ i name, (filterReload slots files).nameAt i = some name →
      (files.foldl reloadFile slots).nameAt i = some name := by
    intro i name h
    obtain ⟨f, hf, rfl⟩ := nameAt_eq_some.1 h
    exact nameAt_of_some (unloadMissing_eq_some.1 hf).1
  intro i j name hi hj
  exact distinct_foldl_reloadFile hdistinct i j name (hstays i name hi) (hstays j name hj)

/-- The names after a reload are among those of the files. -/
theorem mem_of_has_filterReload (h : (filterReload slots files).Has name) :
    name ∈ files.map FilterFile.filename := by
  obtain ⟨i, hi⟩ := h
  obtain ⟨f, hf, rfl⟩ := nameAt_eq_some.1 hi
  exact (unloadMissing_eq_some.1 hf).2

/-- They were loaded before, or load. -/
theorem has_or_loads_of_has_filterReload (hnodup : (files.map FilterFile.filename).Nodup)
    (hdistinct : slots.Distinct) (h : (filterReload slots files).Has name) :
    slots.Has name ∨ ∃ file ∈ files, file.filename = name ∧ (filterLoad file).isSome := by
  obtain ⟨i, hi⟩ := h
  obtain ⟨f, hf, rfl⟩ := nameAt_eq_some.1 hi
  rcases filterReload_eq_some hnodup hdistinct hf with ⟨f₀, hf₀, rfl⟩ | ⟨-, file, hfile, hload, -⟩
  · exact .inl ⟨i, by rw [nameAt_of_some hf₀, renewed_name]⟩
  · exact .inr ⟨file, hfile, (filterLoad_name hload).symm, by rw [hload]; rfl⟩

theorem has_filterReload_of_has (h : slots.Has name) (hmem : name ∈ files.map FilterFile.filename) :
    (filterReload slots files).Has name := by
  obtain ⟨i, hi⟩ := h
  exact ⟨i, by rw [nameAt_filterReload hi, if_pos hmem]⟩

/-- Where nothing else was loaded before, everything that loads is loaded. -/
theorem has_filterReload_of_loads (hfew : files.length < SW_FILTER_SLOTS_MAX)
    (hdistinct : slots.Distinct)
    (hslots : ∀ name, slots.Has name → name ∈ files.map FilterFile.filename) (hfile : file ∈ files)
    (hload : (filterLoad file).isSome) : (filterReload slots files).Has file.filename := by
  have hroom : (files.map FilterFile.filename).length < SW_FILTER_SLOTS_MAX := by
    rwa [List.length_map]
  obtain ⟨i, hi⟩ := has_foldl_reloadFile hroom hdistinct hslots
    (fun file hfile => List.mem_map_of_mem hfile) hfile hload
  obtain ⟨f, hf, hname⟩ := nameAt_eq_some.1 hi
  have hafter : filterReload slots files i = some f :=
    unloadMissing_eq_some.2 ⟨hf, hname ▸ List.mem_map_of_mem hfile⟩
  exact ⟨i, by rw [nameAt_of_some hafter, hname]⟩

end Reload

/-! ## Histories of a directory -/

/-- What a reload finds in the directory, and what `sw_filter_load` reads and parses under a name,
if it can. -/
structure Listing where
  now : ℤ
  entries : List DirEntry
  content : String → Option FilterText

namespace Listing

variable (dir : FilterDir) (l : Listing)

/-- The files that the reload works with. -/
def files : List FilterFile := l.entries.filterMap (fileOf dir.dirName)

/-- The files that are there. -/
def present : List FilterFile :=
  l.entries.filterMap fun dp => (fileOf dir.dirName dp).map fun file =>
    ⟨dp.name, file.mtime, l.content dp.name⟩

/-- Their names. -/
def names : List String := (l.present dir).map FilterFile.filename

/-- The names are distinct, there are slots for all files, and none changes while it is read: what
is loaded under a name is what is there, of the time that `stat` gave. -/
structure Proper : Prop where
  distinct : (l.entries.map DirEntry.name).Nodup
  few : (l.present dir).length < SW_FILTER_SLOTS_MAX
  loads : ∀ dp ∈ l.entries, dp.text = l.content dp.kept
  still : ∀ dp ∈ l.entries, ∀ stat text, dp.stat = some stat → l.content dp.name = some text →
    text.mtime = stat.mtime

/-- The names of the files are still there when the directory is read. -/
def Readable : Prop :=
  ∀ dp ∈ l.entries, (fileOf dir.dirName dp).isSome → dp.kept = dp.name

/-- Nothing has happened in the directory. -/
def SameFiles (l' : Listing) : Prop := (l.present dir).Perm (l'.present dir)

end Listing

/-- A file has newer times whenever its rules are others, for as long as it is there. -/
def Dated (dir : FilterDir) (ls : List Listing) : Prop :=
  ∀ pre l mid l' post, ls = pre ++ l :: (mid ++ l' :: post) →
    ∀ file ∈ l.present dir, ∀ file' ∈ l'.present dir, file'.filename = file.filename →
      (∀ m ∈ mid, file.filename ∈ m.names dir) →
        ∀ text text', file.text = some text → file'.text = some text' →
          (text'.rulesetIn = text.rulesetIn ∧ text'.rulesetOut = text.rulesetOut) ∨
            file.mtime < file'.mtime

/-- A reload past the interval. -/
def ReloadStep (cfg : Config) (dir : FilterDir) (w : Daemon) (l : Listing) (w' : Daemon) : Prop :=
  w.filterLastReload ≤ l.now ∧ l.Proper dir ∧
    w' = w.exec cfg dir (.reload l.now (some l.entries))

section Histories

variable {cfg : Config} {dir : FilterDir} {w w' : Daemon} {l l' : Listing} {ls : List Listing}
  {file : FilterFile} {f : LoadedFilter}

theorem readFiles_eq (dirName : String) (entries : List DirEntry) (files : List FilterFile)
    (hfew : (files ++ entries.filterMap (fileOf dirName)).length < SW_FILTER_SLOTS_MAX) :
    readFiles dirName entries files = some (files ++ entries.filterMap (fileOf dirName)) := by
  induction entries generalizing files with
  | nil => rw [readFiles, List.filterMap_nil, List.append_nil]
  | cons dp entries ih =>
    have hlength : ¬ SW_FILTER_SLOTS_MAX ≤ files.length := by
      rw [List.length_append] at hfew
      omega
    have hcons : (dp :: entries).filterMap (fileOf dirName) =
        (fileOf dirName dp).toList ++ entries.filterMap (fileOf dirName) := by
      cases h : fileOf dirName dp with
      | none => rw [List.filterMap_cons_none h, Option.toList_none, List.nil_append]
      | some file => rw [List.filterMap_cons_some h, Option.toList_some, List.singleton_append]
    rw [hcons, ← List.append_assoc] at hfew ⊢
    rw [readFiles, if_neg hlength]
    exact ih _ hfew

theorem fileOf_eq_some {dirName : String} {dp : DirEntry} (h : fileOf dirName dp = some file) :
    ∃ stat, dp.stat = some stat ∧ file = ⟨dp.kept, stat.mtime, dp.text⟩ := by
  unfold fileOf at h
  split_ifs at h
  split at h
  · cases h
  · rename_i stat hstat
    split_ifs at h
    exact ⟨stat, hstat, (Option.some.inj h).symm⟩

/-- There are as many files as the reload works with, whatever their names have become. -/
theorem length_files : (l.files dir).length = (l.present dir).length := by
  rw [Listing.files, Listing.present]
  induction l.entries with
  | nil => rfl
  | cons dp entries ih => cases hfile : fileOf dir.dirName dp <;> simp [hfile, ih]

/-- **The reload works with the files that are there**, if their names are. -/
theorem files_eq_present (hproper : l.Proper dir) (hread : l.Readable dir) :
    l.files dir = l.present dir := by
  rw [Listing.files, Listing.present]
  refine List.filterMap_congr fun dp hdp => ?_
  cases hfile : fileOf dir.dirName dp with
  | none => rfl
  | some file =>
    have hkept : dp.kept = dp.name := hread dp hdp (by rw [hfile]; rfl)
    obtain ⟨stat, -, rfl⟩ := fileOf_eq_some hfile
    rw [Option.map_some, hproper.loads dp hdp, hkept]

theorem ReloadStep.slots_eq_files (h : ReloadStep cfg dir w l w') :
    w'.slots = filterReload w.slots (l.files dir) := by
  obtain ⟨hnow, hproper, rfl⟩ := h
  have hfew : (l.files dir).length < SW_FILTER_SLOTS_MAX := length_files ▸ hproper.few
  have hread : readFiles dir.dirName l.entries [] = some (l.files dir) :=
    readFiles_eq dir.dirName l.entries [] hfew
  show ((reloadFiles dir w l.now (some l.entries)).map (filterReload w.slots)).getD w.slots = _
  rw [reloadFiles, if_neg (not_lt.2 hnow), Option.bind_some, hread]
  rfl

theorem ReloadStep.slots_eq (h : ReloadStep cfg dir w l w') (hread : l.Readable dir) :
    w'.slots = filterReload w.slots (l.present dir) := by
  rw [h.slots_eq_files, files_eq_present h.2.1 hread]

theorem Listing.Proper.nodup (h : l.Proper dir) : (l.names dir).Nodup := by
  have hsublist : List.Sublist (l.names dir) (l.entries.map DirEntry.name) := by
    rw [Listing.names, Listing.present]
    induction l.entries with
    | nil => exact .slnil
    | cons dp entries ih =>
      cases hfile : fileOf dir.dirName dp with
      | none =>
        rw [List.filterMap_cons_none (by rw [hfile]; rfl)]
        exact ih.cons _
      | some file =>
        rw [List.filterMap_cons_some (by rw [hfile]; rfl)]
        exact ih.cons_cons _
  exact h.distinct.sublist hsublist

/-- A filter has the time of its file. -/
theorem Listing.Proper.mtime_eq (h : l.Proper dir) (hfile : file ∈ l.present dir)
    (hload : filterLoad file = some f) : f.mtime = file.mtime := by
  obtain ⟨dp, hdp, hthere⟩ := List.mem_filterMap.1 hfile
  obtain ⟨file₀, hof, rfl⟩ := Option.map_eq_some_iff.1 hthere
  obtain ⟨stat, hstat, rfl⟩ := fileOf_eq_some hof
  obtain ⟨text, htext, rfl⟩ := Option.map_eq_some_iff.1 hload
  exact h.still dp hdp stat text hstat htext

/-- A loaded filter was loaded from a file that was there ever since. -/
def Stems (dir : FilterDir) (ls : List Listing) (f : LoadedFilter) : Prop :=
  ∃ pre l mid, ls = pre ++ l :: mid ∧ ∃ file ∈ l.present dir, filterLoad file = some f ∧
    f.mtime = file.mtime ∧ ∀ m ∈ mid, file.filename ∈ m.names dir

/-- The slots as any history leaves them. -/
structure Settled (dir : FilterDir) (ls : List Listing) (slots : FilterSlots) : Prop where
  distinct : slots.Distinct
  stems : ∀ i f, slots i = some f → Stems dir ls f

theorem Settled.step (h : Settled dir ls w.slots) (hstep : ReloadStep cfg dir w l w')
    (hread : l.Readable dir) :
    Settled dir (ls ++ [l]) w'.slots := by
  have hproper := hstep.2.1
  have hfresh : ∀ file ∈ l.present dir, ∀ f, filterLoad file = some f →
      Stems dir (ls ++ [l]) f := by
    intro file hfile f hload
    exact ⟨ls, l, [], rfl, file, hfile, hload, hproper.mtime_eq hfile hload, by simp⟩
  rw [hstep.slots_eq hread]
  refine ⟨distinct_filterReload h.distinct, ?_⟩
  intro i f hf
  rcases filterReload_eq_some hproper.nodup h.distinct hf with
    ⟨f₀, hf₀, rfl⟩ | ⟨-, file, hfile, hload, -⟩
  · have hmem := (unloadMissing_eq_some.1 hf).2
    rw [renewed_name] at hmem
    obtain ⟨file, hfile, hname⟩ := List.mem_map.1 hmem
    have hkept : Stems dir (ls ++ [l]) f₀ := by
      obtain ⟨pre, l₀, mid, rfl, file₀, hfile₀, hload₀, htime₀, hmid⟩ := h.stems i f₀ hf₀
      refine ⟨pre, l₀, mid ++ [l], by simp, file₀, hfile₀, hload₀, htime₀, ?_⟩
      intro m hm
      rcases List.mem_append.1 hm with hm | hm
      · exact hmid m hm
      · rw [List.mem_singleton.1 hm, ← filterLoad_name hload₀]
        exact hmem
    rw [renewed_of_mem hproper.nodup hfile hname.symm]
    split
    · cases hload : filterLoad file with
      | none => exact hkept
      | some f' => exact hfresh file hfile f' hload
    · exact hkept
  · exact hfresh file hfile f hload

theorem settled_of_run (hrun : Run (ReloadStep cfg dir) Daemon.init ls w)
    (hread : ∀ l ∈ ls, l.Readable dir) : Settled dir ls w.slots := by
  refine hrun.history (P := fun ls w => (∀ l ∈ ls, l.Readable dir) → Settled dir ls w.slots)
    (fun _ => ⟨?_, ?_⟩) ?_ hread
  · rintro i j name ⟨⟩
  · rintro i f ⟨⟩
  · intro ls w l w' _ h hstep hread
    exact (h fun m hm => hread m (List.mem_append_left _ hm)).step hstep (hread l (by simp))

/-- **A file that loads and is loaded has its rules in force.** -/
theorem rules_eq_of_has (h : Settled dir ls w.slots) (hstep : ReloadStep cfg dir w l w')
    (hread : l.Readable dir) (hdated : Dated dir (ls ++ [l])) (hfile : file ∈ l.present dir)
    {text : FilterText}
    (htext : file.text = some text) (hhas : w'.slots.Has file.filename) :
    ∃ i f, w'.slots i = some f ∧ f.set = ⟨file.filename, text.rulesetIn, text.rulesetOut⟩ := by
  have hproper := hstep.2.1
  have hload : filterLoad file = some ⟨⟨file.filename, text.rulesetIn, text.rulesetOut⟩,
      text.mtime⟩ := by rw [filterLoad, htext]; rfl
  obtain ⟨i, hi⟩ := hhas
  obtain ⟨f, hf, hname⟩ := nameAt_eq_some.1 hi
  refine ⟨i, f, hf, ?_⟩
  rw [hstep.slots_eq hread] at hf
  rcases filterReload_eq_some hproper.nodup h.distinct hf with
    ⟨f₀, hf₀, rfl⟩ | ⟨-, file', hfile', hload', -⟩
  · rw [renewed_name] at hname
    rw [renewed_of_mem hproper.nodup hfile hname, hload, Option.getD_some]
    split
    · rfl
    · -- it was loaded before, from a file with the same rules
      rename_i holder
      obtain ⟨pre, l₀, mid, rfl, file₀, hfile₀, hload₀, htime₀, hmid⟩ := h.stems i f₀ hf₀
      obtain ⟨text₀, htext₀, rfl⟩ := Option.map_eq_some_iff.1 hload₀
      have hrules := hdated pre l₀ mid l [] (by simp) file₀ hfile₀ file hfile hname.symm hmid text₀
        text htext₀ htext
      rcases hrules with ⟨hin, hout⟩ | hnewer
      · rw [hin, hout, ← hname]
      · rw [← htime₀] at hnewer
        exact absurd hnewer holder
  · have hsame : file' = file := by
      refine List.inj_on_of_nodup_map hproper.nodup hfile' hfile ?_
      rw [← filterLoad_name hload', hname]
    rw [hsame, hload] at hload'
    rw [← Option.some.inj hload']

/-- What stays over a reload: the slots of the filters that have a file, and the rules of those
whose file does not load. -/
structure Keeps (dir : FilterDir) (l : Listing) (before after : FilterSlots) : Prop where
  slot : ∀ i name, before.nameAt i = some name → name ∈ l.names dir → after.nameAt i = some name
  rules : ∀ i f, before i = some f → ∀ file ∈ l.present dir, file.filename = f.set.name →
    file.text = none → after i = some f

theorem ReloadStep.keeps (h : ReloadStep cfg dir w l w') (hread : l.Readable dir)
    (hdistinct : w.slots.Distinct) : Keeps dir l w.slots w'.slots := by
  have hproper := h.2.1
  rw [h.slots_eq hread]
  constructor
  · intro i name hi hmem
    rw [nameAt_filterReload hi]
    exact if_pos hmem
  · intro i f hi file hfile hname htext
    have hload : filterLoad file = none := by rw [filterLoad, htext]; rfl
    rw [filterReload_of_some hproper.nodup hdistinct hi (hname ▸ List.mem_map_of_mem hfile),
      renewed_of_mem hproper.nodup hfile hname.symm, hload, Option.getD_none, ite_self]

/-- The slots hold what of the directory loads or was loaded before, and the rules it has now. -/
structure InLine (dir : FilterDir) (l : Listing) (before after : FilterSlots) : Prop where
  names : ∀ name, after.Has name ↔ name ∈ l.names dir ∧
    (before.Has name ∨ ∃ file ∈ l.present dir, file.filename = name ∧ file.text ≠ none)
  rules : ∀ file ∈ l.present dir, ∀ text, file.text = some text →
    ∃ i f, after i = some f ∧ f.set = ⟨file.filename, text.rulesetIn, text.rulesetOut⟩

theorem filterLoad_isSome : (filterLoad file).isSome ↔ file.text ≠ none := by
  rw [filterLoad, Option.isSome_map, Option.isSome_iff_ne_none]

theorem mem_names_congr (h : l.SameFiles dir l') {name : String} :
    name ∈ l.names dir ↔ name ∈ l'.names dir :=
  (h.map _).mem_iff

/-- **Two reloads of the same directory bring the slots in line with it.** -/
theorem inLine_of_twice {w₀ w₁ : Daemon} (h : Settled dir ls w₀.slots)
    (hstep : ReloadStep cfg dir w₀ l w₁) (hstep' : ReloadStep cfg dir w₁ l' w)
    (hread : l.Readable dir) (hread' : l'.Readable dir) (hsame : l.SameFiles dir l')
    (hdated : Dated dir (ls ++ [l, l'])) :
    InLine dir l' w₀.slots w.slots := by
  have hproper := hstep.2.1
  have hproper' := hstep'.2.1
  have h₁ := h.step hstep hread
  -- the slots of the filters without a file are free by the second reload
  have hroom : ∀ name, w₁.slots.Has name → name ∈ l'.names dir := by
    intro name hhas
    rw [hstep.slots_eq hread] at hhas
    exact (mem_names_congr hsame).1 (mem_of_has_filterReload hhas)
  have hloaded : ∀ file ∈ l'.present dir, file.text ≠ none → w.slots.Has file.filename := by
    intro file hfile htext
    rw [hstep'.slots_eq hread']
    exact has_filterReload_of_loads hproper'.few h₁.distinct hroom hfile (filterLoad_isSome.2 htext)
  constructor
  · intro name
    constructor
    · intro hhas
      rw [hstep'.slots_eq hread'] at hhas
      refine ⟨mem_of_has_filterReload hhas, ?_⟩
      rcases has_or_loads_of_has_filterReload hproper'.nodup h₁.distinct hhas with
        hhas₁ | ⟨file, hfile, hname, hload⟩
      · rw [hstep.slots_eq hread] at hhas₁
        rcases has_or_loads_of_has_filterReload hproper.nodup h.distinct hhas₁ with
          hhas₀ | ⟨file, hfile, hname, hload⟩
        · exact .inl hhas₀
        · exact .inr ⟨file, hsame.mem_iff.1 hfile, hname, filterLoad_isSome.1 hload⟩
      · exact .inr ⟨file, hfile, hname, filterLoad_isSome.1 hload⟩
    · rintro ⟨hmem, hhas₀ | ⟨file, hfile, rfl, htext⟩⟩
      · rw [hstep'.slots_eq hread']
        refine has_filterReload_of_has ?_ hmem
        rw [hstep.slots_eq hread]
        exact has_filterReload_of_has hhas₀ ((mem_names_congr hsame).2 hmem)
      · exact hloaded file hfile htext
  · intro file hfile text htext
    have hdated' : Dated dir ((ls ++ [l]) ++ [l']) := by simpa using hdated
    exact rules_eq_of_has h₁ hstep' hread' hdated' hfile htext
      (hloaded file hfile (by simp [htext]))

theorem renewed_renewed (hproper : l.Proper dir) (f : LoadedFilter) :
    renewed (l.present dir) (renewed (l.present dir) f) = renewed (l.present dir) f := by
  by_cases hmem : f.set.name ∈ l.names dir
  · obtain ⟨file, hfile, hname⟩ := List.mem_map.1 hmem
    have hname' : (renewed (l.present dir) f).set.name = file.filename :=
      renewed_name.trans hname.symm
    rw [renewed_of_mem hproper.nodup hfile hname',
      renewed_of_mem hproper.nodup hfile hname.symm]
    cases hload : filterLoad file with
    | none => simp
    | some f' =>
      by_cases holder : f.mtime < file.mtime
      · simp [holder]
      · simp [holder]
  · rw [@renewed_of_not_mem (l.present dir) f hmem, @renewed_of_not_mem (l.present dir) f hmem]

/-- After a reload the files have nothing newer. -/
theorem renewed_filterReload {slots : FilterSlots} {i : FilterSlot} (hproper : l.Proper dir)
    (hdistinct : slots.Distinct) (hf : filterReload slots (l.present dir) i = some f) :
    renewed (l.present dir) f = f := by
  rcases filterReload_eq_some hproper.nodup hdistinct hf with
    ⟨f₀, -, rfl⟩ | ⟨-, file, hfile, hload, -⟩
  · exact renewed_renewed hproper f₀
  · rw [renewed_of_mem hproper.nodup hfile (filterLoad_name hload), hload, Option.getD_some,
      ite_self]

theorem renewed_congr (hproper : l.Proper dir) (hproper' : l'.Proper dir)
    (hsame : l.SameFiles dir l') (hmem : f.set.name ∈ l.names dir) :
    renewed (l'.present dir) f = renewed (l.present dir) f := by
  obtain ⟨file, hfile, hname⟩ := List.mem_map.1 hmem
  rw [renewed_of_mem hproper.nodup hfile hname.symm,
    renewed_of_mem hproper'.nodup (hsame.mem_iff.1 hfile) hname.symm]

/-- **One more reload finds nothing to do.** -/
theorem slots_eq_of_inLine {slots : FilterSlots} {w₂ : Daemon} (hdistinct : w₂.slots.Distinct)
    (hslots : slots.Distinct) (hproper' : l'.Proper dir)
    (hw₂ : w₂.slots = filterReload slots (l'.present dir))
    (hloaded : ∀ file ∈ l'.present dir, file.text ≠ none → w₂.slots.Has file.filename)
    (hstep : ReloadStep cfg dir w₂ l w) (hread : l.Readable dir) (hsame : l'.SameFiles dir l) :
    w.slots = w₂.slots := by
  have hproper := hstep.2.1
  rw [hstep.slots_eq hread]
  funext i
  cases hi : w₂.slots i with
  | some f =>
    have hf := hi
    rw [hw₂] at hf
    have hmem : f.set.name ∈ l'.names dir := (unloadMissing_eq_some.1 hf).2
    rw [filterReload_of_some hproper.nodup hdistinct hi ((mem_names_congr hsame).1 hmem),
      renewed_congr hproper' hproper hsame hmem, renewed_filterReload hproper' hslots hf]
  | none =>
    -- what loads is loaded, so nothing is left for a free slot
    cases hafter : filterReload w₂.slots (l.present dir) i with
    | none => rfl
    | some f =>
      rcases filterReload_eq_some hproper.nodup hdistinct hafter with
        ⟨f₀, hf₀, -⟩ | ⟨-, file, hfile, hload, hnew⟩
      · rw [hi] at hf₀
        cases hf₀
      · refine absurd (hloaded file (hsame.mem_iff.2 hfile) ?_) hnew
        rw [← filterLoad_isSome, hload]
        rfl

/-- After a history of reloads the names in the slots are distinct; the last reload kept the slots
and the rules it had to keep; if the directory was the same the time before, the slots are in line
with it; and if it was the same twice before, the last reload changed nothing. -/
structure Converged (cfg : Config) (dir : FilterDir) (ls : List Listing) (slots : FilterSlots) :
    Prop where
  distinct : slots.Distinct
  keeps : ∀ pre l w₀, ls = pre ++ [l] → Run (ReloadStep cfg dir) Daemon.init pre w₀ →
    Keeps dir l w₀.slots slots
  inLine : ∀ pre l l' w₀, ls = pre ++ [l, l'] → l.SameFiles dir l' →
    Run (ReloadStep cfg dir) Daemon.init pre w₀ → InLine dir l' w₀.slots slots
  stable : ∀ pre l l' l'' w₂, ls = pre ++ [l, l', l''] → l.SameFiles dir l' →
    l'.SameFiles dir l'' → Run (ReloadStep cfg dir) Daemon.init (pre ++ [l, l']) w₂ →
    slots = w₂.slots

/-- **Convergence.**  Every history of reloads in which the names of the files stay readable
converges. -/
theorem filterReload_converges (cfg : Config) (dir : FilterDir) {ls : List Listing} {w : Daemon}
    (hrun : Run (ReloadStep cfg dir) Daemon.init ls w) (hdated : Dated dir ls)
    (hread : ∀ l ∈ ls, l.Readable dir) : Converged cfg dir ls w.slots := by
  have hdet : ∀ w l w₁ w₂, ReloadStep cfg dir w l w₁ → ReloadStep cfg dir w l w₂ → w₁ = w₂ := by
    intro w l w₁ w₂ h₁ h₂
    exact h₁.2.2.trans h₂.2.2.symm
  refine ⟨(settled_of_run hrun hread).distinct, ?_, ?_, ?_⟩
  · rintro pre l w₀ rfl hpre
    obtain ⟨w₀', hpre', hstep⟩ := Run.concat_iff.1 hrun
    obtain rfl := Run.unique hdet hpre hpre'
    have hbefore := settled_of_run hpre fun m hm => hread m (List.mem_append_left _ hm)
    exact hstep.keeps (hread l (by simp)) hbefore.distinct
  · rintro pre l l' w₀ rfl hsame hpre
    obtain ⟨w₀', hpre', htwice⟩ := Run.append_iff.1 hrun
    obtain rfl := Run.unique hdet hpre hpre'
    obtain ⟨w₁, hstep, hrest⟩ := Run.cons_iff.1 htwice
    obtain ⟨w', hstep', hnil⟩ := Run.cons_iff.1 hrest
    obtain rfl := Run.nil_iff.1 hnil
    have hbefore := settled_of_run hpre fun m hm => hread m (List.mem_append_left _ hm)
    exact inLine_of_twice hbefore hstep hstep' (hread l (by simp)) (hread l' (by simp)) hsame hdated
  · rintro pre l l' l'' w₂ rfl hsame hsame' hpre
    have hsplit : pre ++ [l, l', l''] = (pre ++ [l, l']) ++ [l''] := by simp
    rw [hsplit] at hrun hdated hread
    obtain ⟨w₂', hpre', hlast⟩ := Run.concat_iff.1 hrun
    obtain rfl := Run.unique hdet hpre hpre'
    obtain ⟨w₀, hpre₀, htwice⟩ := Run.append_iff.1 hpre
    obtain ⟨w₁, hstep, hrest⟩ := Run.cons_iff.1 htwice
    obtain ⟨w', hstep', hnil⟩ := Run.cons_iff.1 hrest
    obtain rfl := Run.nil_iff.1 hnil
    have hbefore := settled_of_run hpre₀ fun m hm =>
      hread m (List.mem_append_left _ (List.mem_append_left _ hm))
    have hreadl : l.Readable dir := hread l (by simp)
    have hreadl' : l'.Readable dir := hread l' (by simp)
    have hread₂ : ∀ m ∈ pre ++ [l, l'], m.Readable dir :=
      fun m hm => hread m (List.mem_append_left _ hm)
    have hdated' : Dated dir (pre ++ [l, l']) := by
      intro pre₁ l₁ mid l₁' post heq
      exact hdated pre₁ l₁ mid l₁' (post ++ [l'']) (by rw [heq]; simp)
    have hinLine := inLine_of_twice hbefore hstep hstep' hreadl hreadl' hsame hdated'
    refine slots_eq_of_inLine (settled_of_run hpre hread₂).distinct
      (hbefore.step hstep hreadl).distinct hstep'.2.1 (hstep'.slots_eq hreadl') ?_ hlast
      (hread l'' (by simp)) hsame'
    intro file hfile htext
    exact (hinLine.names file.filename).2
      ⟨List.mem_map_of_mem hfile, .inr ⟨file, hfile, rfl, htext⟩⟩

/-- A directory in which nothing happens is well dated. -/
theorem dated_of_unchanged (hsame : ∀ l ∈ ls, ∀ l' ∈ ls, l.SameFiles dir l')
    (hproper : ∀ l ∈ ls, l.Proper dir) : Dated dir ls := by
  intro pre l mid l' post heq file hfile file' hfile' hname _ text text' htext htext'
  have hl : l ∈ ls := by simp [heq]
  have hl' : l' ∈ ls := by simp [heq]
  rw [(hsame l' hl' l hl).mem_iff] at hfile'
  obtain rfl := List.inj_on_of_nodup_map (hproper l hl).nodup hfile' hfile hname
  obtain rfl := Option.some.inj (htext.symm.trans htext')
  exact .inl ⟨rfl, rfl⟩

/-- **A file whose name is overwritten is not loaded**, and is unloaded if it was. -/
theorem not_has_of_overwritten (hstep : ReloadStep cfg dir w l w') {name : String}
    (h : ∀ dp ∈ l.entries, (fileOf dir.dirName dp).isSome → dp.kept ≠ name) :
    ¬ w'.slots.Has name := by
  intro hhas
  rw [hstep.slots_eq_files] at hhas
  obtain ⟨file, hfile, hname⟩ := List.mem_map.1 (mem_of_has_filterReload hhas)
  obtain ⟨dp, hdp, hof⟩ := List.mem_filterMap.1 hfile
  refine h dp hdp (by rw [hof]; rfl) ?_
  obtain ⟨stat, -, rfl⟩ := fileOf_eq_some hof
  exact hname

end Histories

/-- A file that does not parse. -/
def brokenFile : DirEntry := ⟨2, "broken", some ⟨false, 1⟩, "broken", none⟩

/-- What the two files hold. -/
def twoContents (name : String) : Option FilterText :=
  if name = "anonymous" then some ⟨[], [], 1⟩ else none

/-- Three reloads of a directory in which nothing happens. -/
def threeHours : List Listing :=
  [⟨0, [anonymousFile, brokenFile], twoContents⟩, ⟨3600, [brokenFile, anonymousFile], twoContents⟩,
    ⟨7200, [anonymousFile, brokenFile], twoContents⟩]

/-- The daemon after them. -/
def afterThreeHours : Daemon :=
  threeHours.foldl (fun w l => w.exec oneUserConfig hourly (.reload l.now (some l.entries)))
    Daemon.init

theorem mem_threeHours {l : Listing} (hl : l ∈ threeHours) :
    l.entries.Perm [anonymousFile, brokenFile] ∧ l.content = twoContents := by
  simp only [threeHours, List.mem_cons, List.not_mem_nil, or_false] at hl
  rcases hl with rfl | rfl | rfl
  · exact ⟨.refl _, rfl⟩
  · exact ⟨.swap _ _ _, rfl⟩
  · exact ⟨.refl _, rfl⟩

theorem proper_threeHours : ∀ l ∈ threeHours, l.Proper hourly := by
  intro l hl
  obtain ⟨hperm, hcontent⟩ := mem_threeHours hl
  have hentry : ∀ dp ∈ l.entries, dp = anonymousFile ∨ dp = brokenFile := by
    intro dp hdp
    simpa using hperm.mem_iff.1 hdp
  refine ⟨(hperm.map DirEntry.name).nodup_iff.2 (by decide), ?_, ?_, ?_⟩
  · rw [Listing.present]
    refine (List.length_filterMap_le _ _).trans_lt ?_
    rw [hperm.length_eq]
    decide
  · intro dp hdp
    rw [hcontent]
    rcases hentry dp hdp with rfl | rfl
    · rfl
    · rfl
  · intro dp hdp stat text hstat htext
    rw [hcontent] at htext
    rcases hentry dp hdp with rfl | rfl
    · cases hstat
      cases htext
      rfl
    · cases htext

theorem sameFiles_threeHours :
    ∀ l ∈ threeHours, ∀ l' ∈ threeHours, l.SameFiles hourly l' := by
  intro l hl l' hl'
  obtain ⟨hperm, hcontent⟩ := mem_threeHours hl
  obtain ⟨hperm', hcontent'⟩ := mem_threeHours hl'
  rw [Listing.SameFiles, Listing.present, Listing.present, hcontent, hcontent']
  exact (hperm.trans hperm'.symm).filterMap _

theorem run_threeHours :
    Run (ReloadStep oneUserConfig hourly) Daemon.init threeHours afterThreeHours := by
  have hproper := proper_threeHours
  refine .cons ⟨le_refl _, hproper _ (by simp [threeHours]), rfl⟩ ?_
  refine .cons ⟨le_refl _, hproper _ (by simp [threeHours]), rfl⟩ ?_
  refine .cons ⟨le_refl _, hproper _ (by simp [threeHours]), rfl⟩ ?_
  exact .nil _

theorem readable_threeHours : ∀ l ∈ threeHours, l.Readable hourly := by
  intro l hl dp hdp _
  have hentry := (mem_threeHours hl).1.mem_iff.1 hdp
  simp only [List.mem_cons, List.not_mem_nil, or_false] at hentry
  rcases hentry with rfl | rfl
  · rfl
  · rfl

theorem filterReload_converges_threeHours :
    Converged oneUserConfig hourly threeHours afterThreeHours.slots :=
  filterReload_converges oneUserConfig hourly run_threeHours
    (dated_of_unchanged sameFiles_threeHours proper_threeHours) readable_threeHours

/-! ## A directory that does not fit into its buffer -/

/-- Three digits. -/
def digits (i : ℕ) : List Char :=
  [Nat.digitChar (i / 100), Nat.digitChar (i / 10 % 10), Nat.digitChar (i % 10)]

/-- The last octets of the name of a file, which are its number, with `n` letters before it. -/
def numberedName (n i : ℕ) : String := String.ofList (List.replicate n 'x' ++ digits i)

/-- What the files hold. -/
def numberedContent (name : String) : Option FilterText :=
  if (List.range 500).any fun i => name = numberedName 77 i then some ⟨[], [], 1⟩ else none

/-- An entry of the directory. -/
def numberedEntry (ino : ℕ) (name : String) (isDir : Bool) (kept : String) : DirEntry :=
  ⟨ino, name, some ⟨isDir, 1⟩, kept, numberedContent kept⟩

/-- One of 500 files with names of 80 letters.  32 KiB have room for the entries of 314 of them,
behind those of the directory and its parent.  The other 186 are read into the same octets, and so
the first 186 pointers stand in the middle of their names. -/
def numberedFile (i : ℕ) : DirEntry :=
  numberedEntry (i + 3) (numberedName 77 i) false
    (if i < 186 then numberedName 29 (314 + i) else numberedName 77 i)

/-- The directory. -/
def numberedEntries : List DirEntry :=
  numberedEntry 1 "." true (numberedName 77 314) ::
    numberedEntry 2 ".." true (numberedName 53 314) :: (List.range 500).map numberedFile

/-- A reload of it. -/
def numberedListing (now : ℤ) : Listing := ⟨now, numberedEntries, numberedContent⟩

theorem digits_injective {i j : ℕ} (hi : i < 1000) (hj : j < 1000) (h : digits i = digits j) :
    i = j := by
  have hdigit : ∀ a < 10, ∀ b < 10, Nat.digitChar a = Nat.digitChar b → a = b := by decide
  simp only [digits, List.cons.injEq, and_true] at h
  obtain ⟨hhundreds, htens, hones⟩ := h
  have h₁ := hdigit _ (by omega) _ (by omega) hhundreds
  have h₂ := hdigit _ (by omega) _ (by omega) htens
  have h₃ := hdigit _ (by omega) _ (by omega) hones
  omega

/-- Numbered names differ in their lengths or their numbers. -/
theorem numberedName_injective {m n i j : ℕ} (hi : i < 1000) (hj : j < 1000)
    (h : numberedName m i = numberedName n j) : m = n ∧ i = j := by
  have hlist : List.replicate m 'x' ++ digits i = List.replicate n 'x' ++ digits j :=
    String.ofList_injective h
  have hlength := congrArg List.length hlist
  simp only [List.length_append, List.length_replicate, digits, List.length_cons,
    List.length_nil] at hlength
  obtain rfl : m = n := by omega
  exact ⟨rfl, digits_injective hi hj (List.append_cancel_left hlist)⟩

theorem numberedName_ne {name : String} (h : name.toList.length < 3) (n i : ℕ) :
    numberedName n i ≠ name := by
  rintro rfl
  simp [numberedName, digits] at h

theorem numberedContent_name {i : ℕ} (hi : i < 500) :
    numberedContent (numberedName 77 i) = some ⟨[], [], 1⟩ := by
  rw [numberedContent, if_pos]
  rw [List.any_eq_true]
  exact ⟨i, List.mem_range.2 hi, by simp⟩

theorem mem_numberedEntries {dp : DirEntry} : dp ∈ numberedEntries ↔
    dp = numberedEntry 1 "." true (numberedName 77 314) ∨
      dp = numberedEntry 2 ".." true (numberedName 53 314) ∨ ∃ i < 500, dp = numberedFile i := by
  simp [numberedEntries, eq_comm]

theorem exists_numberedEntry {dp : DirEntry} (h : dp ∈ numberedEntries) :
    ∃ ino name isDir kept, dp = numberedEntry ino name isDir kept := by
  rcases mem_numberedEntries.1 h with rfl | rfl | ⟨i, -, rfl⟩
  · exact ⟨_, _, _, _, rfl⟩
  · exact ⟨_, _, _, _, rfl⟩
  · exact ⟨_, _, _, _, rfl⟩

theorem nodup_numberedEntries : (numberedEntries.map DirEntry.name).Nodup := by
  have hname : DirEntry.name ∘ numberedFile = numberedName 77 := rfl
  have hdots : ∀ name : String, name.toList.length < 3 →
      name ∉ (List.range 500).map (numberedName 77) := by
    intro name hshort hmem
    obtain ⟨i, -, hi⟩ := List.mem_map.1 hmem
    exact numberedName_ne hshort 77 i hi
  simp only [numberedEntries, numberedEntry, List.map_cons, List.map_map, hname, List.nodup_cons,
    List.mem_cons, not_or]
  refine ⟨⟨by decide, hdots _ (by decide)⟩, hdots _ (by decide), ?_⟩
  refine List.nodup_range.map_on fun i hi j hj h => ?_
  rw [List.mem_range] at hi hj
  exact (numberedName_injective (by omega) (by omega) h).2

theorem proper_numbered (now : ℤ) : (numberedListing now).Proper hourly := by
  refine ⟨nodup_numberedEntries, ?_, ?_, ?_⟩
  · refine (List.length_filterMap_le _ _).trans_lt ?_
    simp [numberedListing, numberedEntries, SW_FILTER_SLOTS_MAX]
  · intro dp hdp
    obtain ⟨ino, name, isDir, kept, rfl⟩ := exists_numberedEntry hdp
    rfl
  · intro dp hdp stat text hstat htext
    obtain ⟨ino, name, isDir, kept, rfl⟩ := exists_numberedEntry hdp
    cases hstat
    simp only [numberedListing, numberedContent] at htext
    split at htext
    · cases htext
      rfl
    · cases htext

theorem mem_present_numbered (now : ℤ) {i : ℕ} (hi : i < 500)
    (hfile : (fileOf hourly.dirName (numberedFile i)).isSome) :
    ⟨numberedName 77 i, 1, some ⟨[], [], 1⟩⟩ ∈ (numberedListing now).present hourly := by
  refine List.mem_filterMap.2 ⟨numberedFile i, mem_numberedEntries.2 (.inr (.inr ⟨i, hi, rfl⟩)), ?_⟩
  obtain ⟨file, hof⟩ := Option.isSome_iff_exists.1 hfile
  obtain ⟨stat, hstat, rfl⟩ := fileOf_eq_some hof
  cases hstat
  have hname : (numberedFile i).name = numberedName 77 i := rfl
  simp only [hof, Option.map_some, numberedListing, hname, numberedContent_name hi]

/-- No pointer reads the name of the first file. -/
theorem numbered_kept_ne {dp : DirEntry} (h : dp ∈ numberedEntries) :
    dp.kept ≠ numberedName 77 0 := by
  intro hkept
  rcases mem_numberedEntries.1 h with rfl | rfl | ⟨i, hi, rfl⟩
  · exact absurd (numberedName_injective (by omega) (by omega) hkept).2 (by decide)
  · exact absurd (numberedName_injective (by omega) (by omega) hkept).1 (by decide)
  · simp only [numberedFile, numberedEntry] at hkept
    split at hkept
    · exact absurd (numberedName_injective (by omega) (by omega) hkept).1 (by decide)
    · have := (numberedName_injective (by omega) (by omega) hkept).2
      omega

/-- **Reloads do not always converge**: the first file is not loaded by the second reload either. -/
theorem filterReload_overwritten :
    ¬ ∀ cfg dir ls w, Run (ReloadStep cfg dir) Daemon.init ls w → Dated dir ls →
      Converged cfg dir ls w.slots := by
  intro h
  have hlistings : ∀ l ∈ [numberedListing 0, numberedListing 3600], ∃ now,
      l = numberedListing now := by
    intro l hl
    simp only [List.mem_cons, List.not_mem_nil, or_false] at hl
    exact hl.elim (fun hl => ⟨0, hl⟩) fun hl => ⟨3600, hl⟩
  have hdated : Dated hourly [numberedListing 0, numberedListing 3600] := by
    refine dated_of_unchanged ?_ ?_
    · intro l hl l' hl'
      obtain ⟨now, rfl⟩ := hlistings l hl
      obtain ⟨now', rfl⟩ := hlistings l' hl'
      exact .refl _
    · intro l hl
      obtain ⟨now, rfl⟩ := hlistings l hl
      exact proper_numbered now
  obtain ⟨w₁, hstep₁⟩ : ∃ w₁, ReloadStep oneUserConfig hourly Daemon.init (numberedListing 0) w₁ :=
    ⟨_, le_refl _, proper_numbered 0, rfl⟩
  have hnext : w₁.filterLastReload ≤ 3600 := by
    rw [hstep₁.2.2]
    decide
  obtain ⟨w, hstep⟩ : ∃ w, ReloadStep oneUserConfig hourly w₁ (numberedListing 3600) w :=
    ⟨_, hnext, proper_numbered 3600, rfl⟩
  have hconverged := h oneUserConfig hourly _ w (.cons hstep₁ (.single hstep)) hdated
  have hinLine := hconverged.inLine [] _ _ Daemon.init rfl (.refl _) (.nil _)
  -- it is there, and loads
  have hthere := @mem_present_numbered 3600 0 (by omega) (by decide +kernel)
  have hhas := (hinLine.names _).2
    ⟨List.mem_map.2 ⟨_, hthere, rfl⟩, .inr ⟨_, hthere, rfl, Option.some_ne_none _⟩⟩
  exact not_has_of_overwritten hstep (fun dp hdp _ => numbered_kept_ne hdp) hhas

end Sweetspot
