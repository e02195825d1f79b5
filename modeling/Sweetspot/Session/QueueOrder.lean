import Mathlib.Data.List.Range
import Sweetspot.Session.Queue

/-!
# The order of the queue

The queue of records as lists: whatever the threads do, the chain, the entries of a running pass and
those for another try stay separate lists in memory, and nothing is lost between them.

* `Ordered`: the lists together hold what was submitted and not yet committed, in order.
* `exec_ordered`: every piece of work can be done and keeps them so.
* `queue_lossless`: the queue loses nothing, repeats nothing and keeps the order.
-/

namespace Sweetspot

open Linked

namespace AcctQueue

/-! ## The invariant -/

/-- The entries for another try, between `retry_head` and `retry_tail`. -/
inductive RetryList (heap : ℕ → Option AcctNode) : Option ℕ → Option ℕ → List ℕ → Prop
  | nil : RetryList heap none none []
  | snoc {head : Option ℕ} {as : List ℕ} {tail : ℕ}
    (h : Segment AcctNode.next heap head (as ++ [tail]) none) :
    RetryList heap head (some tail) (as ++ [tail])

/-- The lists of a pass: the entry taken off, the entries still to be tried, and those for another
try. -/
inductive PassList (heap : ℕ → Option AcctNode) : CommitPc → List ℕ → List ℕ → List ℕ → Prop
  | idle : PassList heap .idle [] [] []
  | loop {e retryHead retryTail : Option ℕ} {rest retry : List ℕ}
    (hrest : Segment AcctNode.next heap e rest none)
    (hretry : RetryList heap retryHead retryTail retry) :
    PassList heap (.loop e retryHead retryTail) [] rest retry
  | entry {e : ℕ} {n : AcctNode} {next retryHead retryTail : Option ℕ} {rest retry : List ℕ}
    (hn : heap e = some n) (hnext : n.next = none)
    (hrest : Segment AcctNode.next heap next rest none)
    (hretry : RetryList heap retryHead retryTail retry) :
    PassList heap (.entry e next retryHead retryTail) [e] rest retry

/-- The entries that threads hold are cleared, and not in `order`. -/
def HeldApart (heap : ℕ → Option AcctNode) (held : ℕ → Option ℕ) (order : List ℕ) : Prop :=
  ∀ thread a, held thread = some a → (∃ n, heap a = some n ∧ n.next = none) ∧ a ∉ order

/-- The lists of the memory: the chain, and the three of a pass.  What was submitted is committed or
in one of them, and taken in this order they are in the order of submission. -/
structure Ordered (s : AcctQueue) (current rest retry chain : List ℕ) : Prop where
  chain_list : Segment AcctNode.next s.heap s.globalAcctChain chain none
  pass_list : PassList s.heap s.pc current rest retry
  nodup : (retry ++ (current ++ rest) ++ chain).Nodup
  held : HeldApart s.heap s.held (retry ++ (current ++ rest) ++ chain)
  apart : ∀ thread thread' a, s.held thread = some a → s.held thread' = some a → thread = thread'
  owned : ∀ a, (s.heap a).isSome →
    (∃ thread, s.held thread = some a) ∨ a ∈ retry ++ (current ++ rest) ++ chain
  accounted : (s.committed ++ (retry ++ (current ++ rest) ++ chain).map s.ticket).Perm
    (List.range s.submitted)
  sorted : ((retry ++ (current ++ rest) ++ chain).map s.ticket).Pairwise (· < ·)
  tried : s.attempted ++ (current ++ rest).map s.ticket = s.detached
  detached_sorted : s.detached.Pairwise (· < ·)

section Lists

variable {heap : ℕ → Option AcctNode} {pc : CommitPc} {retryHead retryTail : Option ℕ} {a e : ℕ}
  {n : AcctNode} {current rest retry : List ℕ}

theorem RetryList.frame (h : RetryList heap retryHead retryTail retry) (ha : a ∉ retry)
    (n : Option AcctNode) : RetryList (Function.update heap a n) retryHead retryTail retry := by
  cases h with
  | nil => exact .nil
  | snoc h => exact .snoc (h.frame ha n)

theorem RetryList.isSome (h : RetryList heap retryHead retryTail retry) (ha : a ∈ retry) :
    (heap a).isSome := by
  cases h with
  | nil => cases ha
  | snoc h => exact h.isSome ha

theorem PassList.frame (h : PassList heap pc current rest retry)
    (ha : a ∉ retry ++ (current ++ rest)) (n : Option AcctNode) :
    PassList (Function.update heap a n) pc current rest retry := by
  simp only [List.mem_append, not_or] at ha
  obtain ⟨hretry', hcurrent', hrest'⟩ := ha
  cases h with
  | idle => exact .idle
  | loop hrest hretry => exact .loop (hrest.frame hrest' n) (hretry.frame hretry' n)
  | entry hn hnext hrest hretry =>
    refine .entry ?_ hnext (hrest.frame hrest' n) (hretry.frame hretry' n)
    rw [Function.update_of_ne (by simpa [eq_comm] using hcurrent')]
    exact hn

theorem PassList.isSome (h : PassList heap pc current rest retry)
    (ha : a ∈ retry ++ (current ++ rest)) : (heap a).isSome := by
  simp only [List.mem_append] at ha
  cases h with
  | idle => simp at ha
  | loop hrest hretry =>
    rcases ha with ha | ha | ha
    · exact hretry.isSome ha
    · cases ha
    · exact hrest.isSome ha
  | entry hn hnext hrest hretry =>
    rcases ha with ha | ha | ha
    · exact hretry.isSome ha
    · obtain rfl := List.mem_singleton.mp ha
      rw [hn, Option.isSome_some]
    · exact hrest.isSome ha

theorem setNext_eq (hn : heap a = some n) (next : Option ℕ) :
    setNext heap a next = some (Function.update heap a (some { n with next })) := by
  rw [setNext, hn, Option.map_some]

/-- A write to an entry of the lists is no write to one that a thread holds. -/
theorem HeldApart.frame {held : ℕ → Option ℕ} {order : List ℕ} (h : HeldApart heap held order)
    (ha : a ∈ order) (m : Option AcctNode) : HeldApart (Function.update heap a m) held order := by
  intro thread b hb
  obtain ⟨⟨k, hk, hnext⟩, hmem⟩ := h thread b hb
  refine ⟨⟨k, ?_, hnext⟩, hmem⟩
  rw [Function.update_of_ne, hk]
  rintro rfl
  exact hmem ha

/-- A write to an entry makes no new one. -/
theorem isSome_of_update {m : Option AcctNode} {b : ℕ} (ha : (heap a).isSome)
    (hb : (Function.update heap a m b).isSome) : (heap b).isSome := by
  by_cases hab : b = a
  · rwa [hab]
  · rwa [Function.update_of_ne hab] at hb

theorem attempt_next (outcome : Outcome) (n : AcctNode) : (n.attempt outcome).1.next = n.next := by
  unfold AcctNode.attempt AcctNode.initScope
  by_cases hscope : n.hasScope = true
  · simp [hscope, AcctNode.methodCommit]
  · cases hdone : outcome.scopeDone <;> simp [hscope, AcctNode.methodCommit]

/-- **Another entry for another try.** -/
theorem RetryList.push (h : RetryList heap retryHead retryTail retry) (hnodup : retry.Nodup)
    (he : e ∉ retry) (hn : heap e = some n) (hnext : n.next = none) :
    (retryTail = none ∧ RetryList heap (some e) (some e) (retry ++ [e])) ∨
      ∃ tail m, retryTail = some tail ∧ tail ∈ retry ∧
        setNext heap tail (some e) = some (Function.update heap tail (some m)) ∧
        RetryList (Function.update heap tail (some m)) retryHead (some e) (retry ++ [e]) := by
  cases h with
  | nil =>
    refine Or.inl ⟨rfl, @RetryList.snoc heap (some e) [] e ?_⟩
    exact segment_singleton_iff.mpr ⟨rfl, n, hn, hnext⟩
  | @snoc _ as tail h =>
    obtain ⟨m, hm⟩ := Option.isSome_iff_exists.mp (h.isSome (a := tail) (by simp))
    have htail : tail ∉ as := by
      rw [List.nodup_append] at hnodup
      intro hmem
      exact hnodup.2.2 tail hmem tail (List.mem_singleton_self tail) rfl
    have hne : e ≠ tail := by
      rintro rfl
      exact he (by simp)
    refine Or.inr ⟨tail, { m with next := some e }, rfl, by simp, setNext_eq hm (some e), ?_⟩
    refine @RetryList.snoc _ retryHead (as ++ [tail]) e ?_
    refine segment_append_iff.mpr ⟨some e, h.relink htail { m with next := some e }, ?_⟩
    refine segment_singleton_iff.mpr ⟨rfl, n, ?_, hnext⟩
    rw [Function.update_of_ne hne, hn]

end Lists

section Work

variable {s : AcctQueue} {current rest retry chain : List ℕ} {thread a : ℕ}

theorem Ordered.isSome (h : Ordered s current rest retry chain)
    (ha : a ∈ retry ++ (current ++ rest) ++ chain) : (s.heap a).isSome := by
  rcases List.mem_append.mp ha with ha | ha
  · exact h.pass_list.isSome ha
  · exact h.chain_list.isSome ha

theorem Ordered.ticket_lt (h : Ordered s current rest retry chain)
    (ha : a ∈ retry ++ (current ++ rest) ++ chain) : s.ticket a < s.submitted := by
  rw [← List.mem_range, ← h.accounted.mem_iff]
  exact List.mem_append_right _ (List.mem_map_of_mem ha)

/-- No more entries are in the lists than were submitted. -/
theorem Ordered.length_le (h : Ordered s current rest retry chain) :
    (retry ++ (current ++ rest) ++ chain).length ≤ s.submitted := by
  have hlength := h.accounted.length_eq
  rw [List.length_append, List.length_map, List.length_range] at hlength
  omega

/-- The entries of the chain are what the walk finds. -/
theorem Ordered.pending_eq (h : Ordered s current rest retry chain) :
    s.pending = chain.map s.ticket := by
  have hlength := h.length_le
  rw [List.length_append] at hlength
  rw [pending, addresses_of_segment h.chain_list (by omega)]

theorem map_update_of_notMem {f : ℕ → ℕ} {l : List ℕ} (ha : a ∉ l) (v : ℕ) :
    l.map (Function.update f a v) = l.map f := by
  refine List.map_congr_left fun b hb => ?_
  rw [Function.update_of_ne]
  rintro rfl
  exact ha hb

theorem Ordered.malloc (h : Ordered s current rest retry chain) (hheld : s.held thread = none)
    (hfree : s.heap a = none) :
    ∃ s', s.malloc thread a = some s' ∧ Ordered s' current rest retry chain := by
  have ha : a ∉ retry ++ (current ++ rest) ++ chain := by
    intro hmem
    have hsome := h.isSome hmem
    rw [hfree] at hsome
    cases hsome
  refine ⟨{ s with
    heap := Function.update s.heap a (some ⟨false, 0, none⟩)
    held := Function.update s.held thread (some a) }, by simp [AcctQueue.malloc, hheld, hfree], ?_⟩
  have hpass := ha
  rw [List.mem_append, not_or] at hpass
  refine
    { chain_list := h.chain_list.frame hpass.2 _
      pass_list := h.pass_list.frame hpass.1 _
      nodup := h.nodup
      held := ?_
      apart := ?_
      owned := ?_
      accounted := h.accounted
      sorted := h.sorted
      tried := h.tried
      detached_sorted := h.detached_sorted }
  · intro thread' b hb
    by_cases hthread : thread' = thread
    · subst hthread
      simp only [Function.update_self, Option.some.injEq] at hb
      subst hb
      exact ⟨⟨_, Function.update_self .., rfl⟩, ha⟩
    · simp only [Function.update_of_ne hthread] at hb
      obtain ⟨⟨n, hn, hnext⟩, hmem⟩ := h.held thread' b hb
      refine ⟨⟨n, ?_, hnext⟩, hmem⟩
      show Function.update s.heap a _ b = some n
      rw [Function.update_of_ne, hn]
      rintro rfl
      rw [hfree] at hn
      cases hn
  · have hother : ∀ thread' b, Function.update s.held thread (some a) thread' = some b →
        (thread' = thread ∧ b = a) ∨ (s.held thread' = some b ∧ b ≠ a) := by
      intro thread' b hb
      by_cases hthread : thread' = thread
      · rw [hthread, Function.update_self] at hb
        exact Or.inl ⟨hthread, (Option.some.inj hb).symm⟩
      · rw [Function.update_of_ne hthread] at hb
        refine Or.inr ⟨hb, ?_⟩
        rintro rfl
        obtain ⟨⟨n, hn, -⟩, -⟩ := h.held thread' b hb
        rw [hfree] at hn
        cases hn
    intro t t' b ht ht'
    rcases hother t b ht with ⟨rfl, rfl⟩ | ⟨ht, hne⟩ <;>
      rcases hother t' b ht' with ⟨rfl, heq⟩ | ⟨ht', hne'⟩
    · rfl
    · exact absurd rfl hne'
    · exact absurd heq hne
    · exact h.apart t t' b ht ht'
  · intro b hb
    by_cases hab : b = a
    · exact Or.inl ⟨thread, by simp [hab]⟩
    · simp only [Function.update_of_ne hab] at hb
      refine (h.owned b hb).imp_left ?_
      rintro ⟨thread', hthread'⟩
      refine ⟨thread', ?_⟩
      show Function.update s.held thread (some a) thread' = some b
      rw [Function.update_of_ne, hthread']
      rintro rfl
      rw [hheld] at hthread'
      cases hthread'

/-- The books after a submission. -/
theorem Ordered.accounted_concat (h : Ordered s current rest retry chain)
    (ha : a ∉ retry ++ (current ++ rest) ++ chain) :
    (s.committed ++ (retry ++ (current ++ rest) ++ (chain ++ [a])).map
        (Function.update s.ticket a s.submitted)).Perm (List.range (s.submitted + 1)) ∧
      ((retry ++ (current ++ rest) ++ (chain ++ [a])).map
        (Function.update s.ticket a s.submitted)).Pairwise (· < ·) := by
  have hmap : (retry ++ (current ++ rest) ++ (chain ++ [a])).map
      (Function.update s.ticket a s.submitted) =
        (retry ++ (current ++ rest) ++ chain).map s.ticket ++ [s.submitted] := by
    rw [← List.append_assoc, List.map_append, map_update_of_notMem ha, List.map_singleton,
      Function.update_self]
  rw [hmap]
  constructor
  · rw [← List.append_assoc, List.range_succ]
    exact h.accounted.append_right _
  · rw [List.pairwise_append]
    refine ⟨h.sorted, List.pairwise_singleton .., ?_⟩
    intro x hx y hy
    obtain ⟨b, hb, rfl⟩ := List.mem_map.mp hx
    rw [List.mem_singleton.mp hy]
    exact h.ticket_lt hb

/-- What the other threads hold after a submission. -/
theorem Ordered.held_of_submitted (h : Ordered s current rest retry chain)
    (hheld : s.held thread = some a) {thread' b : ℕ}
    (hb : Function.update s.held thread none thread' = some b) :
    s.held thread' = some b ∧ b ≠ a := by
  by_cases hthread : thread' = thread
  · rw [hthread, Function.update_self] at hb
    cases hb
  · rw [Function.update_of_ne hthread] at hb
    refine ⟨hb, ?_⟩
    rintro rfl
    exact hthread (h.apart thread' thread b hb hheld)

/-- **A submission** hangs the entry on the end of the chain. -/
theorem Ordered.submit (h : Ordered s current rest retry chain) (hheld : s.held thread = some a) :
    ∃ s', s.submit thread = some s' ∧ Ordered s' current rest retry (chain ++ [a]) := by
  obtain ⟨⟨n, hn, hnext⟩, ha⟩ := h.held thread a hheld
  obtain ⟨haccounted, hsorted⟩ := h.accounted_concat ha
  have hnodup : (retry ++ (current ++ rest) ++ (chain ++ [a])).Nodup := by
    rw [← List.append_assoc, ← List.concat_eq_append]
    exact h.nodup.concat ha
  have htried : (current ++ rest).map (Function.update s.ticket a s.submitted) =
      (current ++ rest).map s.ticket := by
    refine map_update_of_notMem ?_ _
    intro hmem
    exact ha (by simp only [List.mem_append] at hmem ⊢; tauto)
  have hheld' : HeldApart s.heap (Function.update s.held thread none)
      (retry ++ (current ++ rest) ++ (chain ++ [a])) := by
    intro thread' b hb
    obtain ⟨hb, hne⟩ := h.held_of_submitted hheld hb
    obtain ⟨hm, hmem⟩ := h.held thread' b hb
    refine ⟨hm, ?_⟩
    rw [← List.append_assoc, List.mem_append, not_or]
    exact ⟨hmem, by simpa using hne⟩
  have hapart : ∀ t t' b, Function.update s.held thread none t = some b →
      Function.update s.held thread none t' = some b → t = t' := by
    intro t t' b ht ht'
    exact h.apart t t' b (h.held_of_submitted hheld ht).1 (h.held_of_submitted hheld ht').1
  have howned : ∀ b, (s.heap b).isSome →
      (∃ thread', Function.update s.held thread none thread' = some b) ∨
        b ∈ retry ++ (current ++ rest) ++ (chain ++ [a]) := by
    intro b hb
    rw [← List.append_assoc, List.mem_append, List.mem_singleton]
    rcases h.owned b hb with ⟨thread', hthread'⟩ | hmem
    · by_cases hthread : thread' = thread
      · rw [hthread, hheld] at hthread'
        exact Or.inr (Or.inr (Option.some.inj hthread').symm)
      · exact Or.inl ⟨thread', by rw [Function.update_of_ne hthread, hthread']⟩
    · exact Or.inr (Or.inl hmem)
  have hlist := h.chain_list
  cases hchain : s.globalAcctChain with
  | none =>
    rw [hchain] at hlist
    have hnil := hlist.eq_nil_iff.mpr rfl
    subst hnil
    refine ⟨_, by simp only [AcctQueue.submit, hheld, hchain]; rfl, ?_⟩
    exact
      { chain_list := segment_singleton_iff.mpr ⟨rfl, n, hn, hnext⟩
        pass_list := h.pass_list
        nodup := hnodup
        held := hheld'
        apart := hapart
        owned := howned
        accounted := haccounted
        sorted := hsorted
        tried := (congrArg (s.attempted ++ ·) htried).trans h.tried
        detached_sorted := h.detached_sorted }
  | some p =>
    rw [hchain] at hlist
    have hne : chain ≠ [] := by
      intro hnil
      have hnone := hlist.eq_nil_iff.mp hnil
      cases hnone
    obtain ⟨init, q, rfl⟩ := (chain.eq_nil_or_concat').resolve_left hne
    have hlength := h.length_le
    simp only [List.length_append, List.length_singleton] at hlength
    have hlast : lastNode AcctNode.next s.heap s.submitted p = some q :=
      lastNode_of_segment hlist (by omega)
    obtain ⟨m, hm⟩ := Option.isSome_iff_exists.mp (hlist.isSome (a := q) (by simp))
    have hq : q ∉ retry ++ (current ++ rest) ∧ q ∉ init := by
      have hnodup := h.nodup
      simp only [List.nodup_append, List.mem_append, List.mem_singleton] at hnodup
      constructor
      · intro hmem
        exact hnodup.2.2 q (by simpa using hmem) q (Or.inr rfl) rfl
      · intro hmem
        exact hnodup.2.1.2.2 q hmem q rfl rfl
    have haq : a ≠ q := by
      rintro rfl
      exact ha (by simp)
    refine ⟨_, by
      simp only [AcctQueue.submit, hheld, hchain, hlast, setNext_eq hm, Option.bind_eq_bind,
        Option.bind_some]
      rfl, ?_⟩
    refine
      { chain_list := ?_
        pass_list := h.pass_list.frame hq.1 _
        nodup := hnodup
        held := hheld'.frame (by simp) _
        apart := hapart
        owned := fun b hb => howned b (isSome_of_update (by rw [hm]; rfl) hb)
        accounted := haccounted
        sorted := hsorted
        tried := (congrArg (s.attempted ++ ·) htried).trans h.tried
        detached_sorted := h.detached_sorted }
    refine segment_append_iff.mpr ⟨some a, hlist.relink hq.2 { m with next := some a }, ?_⟩
    exact segment_singleton_iff.mpr ⟨rfl, n, (Function.update_of_ne haq _ _).trans hn, hnext⟩

/-- **Detaching** moves the chain to the entries to be tried. -/
theorem Ordered.detach (h : Ordered s current rest retry chain) (hpc : s.pc = .idle) :
    ∃ s', s.detach = some s' ∧ Ordered s' [] chain [] [] := by
  have hpass := h.pass_list
  rw [hpc] at hpass
  cases hpass
  have hpending := h.pending_eq
  refine ⟨_, by simp only [AcctQueue.detach, hpc]; rfl, ?_⟩
  refine
    { chain_list := rfl
      pass_list := .loop h.chain_list .nil
      nodup := by simpa using h.nodup
      held := fun thread b hb => by simpa using h.held thread b hb
      apart := h.apart
      owned := fun b hb => by simpa using h.owned b hb
      accounted := by simpa using h.accounted
      sorted := by simpa using h.sorted
      tried := by simpa using hpending.symm
      detached_sorted := ?_ }
  show s.pending.Pairwise (· < ·)
  rw [hpending]
  simpa using h.sorted

/-- **The next entry** is taken off. -/
theorem Ordered.takeNext {e : ℕ} {retryHead retryTail : Option ℕ}
    (h : Ordered s current rest retry chain) (hpc : s.pc = .loop (some e) retryHead retryTail) :
    ∃ s' rest', s.takeNext = some s' ∧ rest = e :: rest' ∧ Ordered s' [e] rest' retry chain := by
  have hpass := h.pass_list
  rw [hpc] at hpass
  cases hpass with
  | loop hrest hretry =>
    cases rest with
    | nil =>
      have hnone := hrest.eq_nil_iff.mp rfl
      cases hnone
    | cons b rest =>
      obtain ⟨hb, n, hn, hrest⟩ := hrest
      cases hb
      have hnodup := h.nodup
      have hmem : e ∉ retry ∧ e ∉ rest ∧ e ∉ chain := by
        simp only [List.nil_append, List.nodup_append, List.nodup_cons, List.mem_append,
          List.mem_cons] at hnodup
        refine ⟨fun hmem => ?_, hnodup.1.2.1.1, fun hmem => ?_⟩
        · exact hnodup.1.2.2 e hmem e (Or.inl rfl) rfl
        · exact hnodup.2.2 e (Or.inr (Or.inl rfl)) e hmem rfl
      refine ⟨_, rest, by
        simp only [AcctQueue.takeNext, hpc, hn, setNext_eq hn, Option.bind_eq_bind,
          Option.bind_some]
        rfl, rfl, ?_⟩
      exact
        { chain_list := h.chain_list.frame hmem.2.2 _
          pass_list := .entry (Function.update_self ..) rfl (hrest.frame hmem.2.1 _)
            (hretry.frame hmem.1 _)
          nodup := hnodup
          held := h.held.frame (by simp) _
          apart := h.apart
          owned := fun b hb => h.owned b (isSome_of_update (by rw [hn]; rfl) hb)
          accounted := h.accounted
          sorted := h.sorted
          tried := h.tried
          detached_sorted := h.detached_sorted }

/-- The entry taken off is in no other list. -/
theorem Ordered.current_apart {e : ℕ} (h : Ordered s [e] rest retry chain) :
    e ∉ retry ∧ e ∉ rest ∧ e ∉ chain := by
  have hnodup := h.nodup
  simp only [List.singleton_append, List.nodup_append, List.nodup_cons, List.mem_append,
    List.mem_cons] at hnodup
  refine ⟨fun hmem => ?_, hnodup.1.2.1.1, fun hmem => ?_⟩
  · exact hnodup.1.2.2 e hmem e (Or.inl rfl) rfl
  · exact hnodup.2.2 e (Or.inr (Or.inl rfl)) e hmem rfl

/-- An entry that is done with is committed and freed. -/
theorem Ordered.tryEntry_done {e : ℕ} {n n' : AcctNode} {next retryHead retryTail : Option ℕ}
    {outcome : Outcome} (h : Ordered s [e] rest retry chain)
    (hpc : s.pc = .entry e next retryHead retryTail) (hn : s.heap e = some n)
    (hdone : n.attempt outcome = (n', true)) :
    ∃ s', s.tryEntry outcome = some s' ∧ Ordered s' [] rest retry chain := by
  obtain ⟨hretry', hrest', hchain'⟩ := h.current_apart
  have hpass := h.pass_list
  rw [hpc] at hpass
  cases hpass with
  | entry _ _ hrest hretry =>
    refine ⟨_, by
      simp only [AcctQueue.tryEntry, hpc, hn, hdone, Option.bind_eq_bind, Option.bind_some]
      rfl, ?_⟩
    refine
      { chain_list := h.chain_list.frame hchain' _
        pass_list := .loop (hrest.frame hrest' _) (hretry.frame hretry' _)
        nodup := ?_
        held := ?_
        apart := h.apart
        owned := ?_
        accounted := ?_
        sorted := ?_
        tried := ?_
        detached_sorted := h.detached_sorted }
    · refine h.nodup.sublist ?_
      exact ((List.sublist_cons_self e rest).append_left retry).append_right chain
    · intro thread b hb
      obtain ⟨hcleared, hb'⟩ := h.held.frame (a := e) (by simp) none thread b hb
      refine ⟨hcleared, fun hmem => hb' ?_⟩
      exact ((List.sublist_cons_self e rest).append_left retry |>.append_right chain).mem hmem
    · intro b hb
      have hbe : b ≠ e := by
        rintro rfl
        simp at hb
      simp only [Function.update_of_ne hbe] at hb
      refine (h.owned b hb).imp_right fun hmem => ?_
      simpa [hbe] using hmem
    · refine List.Perm.trans ?_ h.accounted
      simp only [List.map_append, List.map_cons, List.nil_append, List.append_assoc,
        List.singleton_append]
      refine List.Perm.append_left _ ?_
      exact List.perm_middle.symm
    · refine h.sorted.sublist (List.Sublist.map _ ?_)
      exact ((List.sublist_cons_self e rest).append_left retry).append_right chain
    · show (s.attempted ++ [s.ticket e]) ++ rest.map s.ticket = s.detached
      rw [List.append_assoc]
      exact h.tried

/-- An entry that is not is put with those for another try. -/
theorem Ordered.tryEntry_again {e : ℕ} {n n' : AcctNode} {next retryHead retryTail : Option ℕ}
    {outcome : Outcome} (h : Ordered s [e] rest retry chain)
    (hpc : s.pc = .entry e next retryHead retryTail) (hn : s.heap e = some n)
    (hagain : n.attempt outcome = (n', false)) :
    ∃ s', s.tryEntry outcome = some s' ∧ Ordered s' [] rest (retry ++ [e]) chain := by
  obtain ⟨hretry', hrest', hchain'⟩ := h.current_apart
  have hnodup : retry.Nodup := by
    have hnodup := h.nodup
    simp only [List.nodup_append] at hnodup
    exact hnodup.1.1
  have horder : retry ++ [e] ++ ([] ++ rest) ++ chain = retry ++ ([e] ++ rest) ++ chain := by
    simp
  have htried : (s.attempted ++ [s.ticket e]) ++ ([] ++ rest).map s.ticket = s.detached := by
    rw [List.append_assoc]
    exact h.tried
  have hpass := h.pass_list
  rw [hpc] at hpass
  cases hpass with
  | @entry _ k _ _ _ _ _ hk hnext hrest hretry =>
    have hnext' : n'.next = none := by
      obtain rfl : k = n := Option.some.inj (hk.symm.trans hn)
      rw [← hnext, ← attempt_next outcome k, hagain]
    -- the entry itself is written first
    have hself : Function.update s.heap e (some n') e = some n' := Function.update_self ..
    have hheld : HeldApart (Function.update s.heap e (some n')) s.held
        (retry ++ [e] ++ ([] ++ rest) ++ chain) := by
      rw [horder]
      exact h.held.frame (by simp) _
    have howned : ∀ b, (Function.update s.heap e (some n') b).isSome →
        (∃ thread, s.held thread = some b) ∨ b ∈ retry ++ [e] ++ ([] ++ rest) ++ chain := by
      intro b hb
      rw [horder]
      exact h.owned b (isSome_of_update (by rw [hn]; rfl) hb)
    rcases (hretry.frame hretry' (some n')).push hnodup hretry' hself hnext' with
      ⟨rfl, hpush⟩ | ⟨tail, m, rfl, htail, hset, hpush⟩
    · refine ⟨_, by
        simp only [AcctQueue.tryEntry, hpc, hn, hagain, Option.bind_eq_bind, Option.bind_some]
        rfl, ?_⟩
      exact
        { chain_list := h.chain_list.frame hchain' _
          pass_list := .loop (hrest.frame hrest' _) hpush
          nodup := horder ▸ h.nodup
          held := hheld
          apart := h.apart
          owned := howned
          accounted := horder ▸ h.accounted
          sorted := horder ▸ h.sorted
          tried := htried
          detached_sorted := h.detached_sorted }
    · have htail' : tail ∉ rest ∧ tail ∉ chain := by
        have hnodup := h.nodup
        simp only [List.nodup_append, List.mem_append, List.mem_singleton] at hnodup
        constructor
        · intro hmem
          exact hnodup.1.2.2 tail htail tail (Or.inr hmem) rfl
        · intro hmem
          exact hnodup.2.2 tail (Or.inl htail) tail hmem rfl
      refine ⟨_, by
        simp only [AcctQueue.tryEntry, hpc, hn, hagain, hset, Option.bind_eq_bind,
          Option.bind_some]
        rfl, ?_⟩
      refine
        { chain_list := (h.chain_list.frame hchain' _).frame htail'.2 _
          pass_list := .loop ((hrest.frame hrest' _).frame htail'.1 _) hpush
          nodup := horder ▸ h.nodup
          held := hheld.frame (by simp [htail]) _
          apart := h.apart
          owned := ?_
          accounted := horder ▸ h.accounted
          sorted := horder ▸ h.sorted
          tried := htried
          detached_sorted := h.detached_sorted }
      intro b hb
      refine howned b (isSome_of_update ?_ hb)
      rw [Function.update_of_ne (by rintro rfl; exact hretry' htail)]
      exact hretry.isSome htail

/-- **Splicing** puts the entries for another try in front of the chain. -/
theorem Ordered.splice {retryHead retryTail : Option ℕ} (h : Ordered s current rest retry chain)
    (hpc : s.pc = .loop none retryHead retryTail) :
    ∃ s', s.splice = some s' ∧ Ordered s' [] [] [] (retry ++ chain) := by
  have hpass := h.pass_list
  rw [hpc] at hpass
  cases hpass with
  | loop hrest hretry =>
    have hnil := hrest.eq_nil_iff.mpr rfl
    subst hnil
    cases hretry with
    | nil =>
      refine ⟨_, by simp only [AcctQueue.splice, hpc]; rfl, ?_⟩
      exact
        { chain_list := h.chain_list
          pass_list := .idle
          nodup := h.nodup
          held := h.held
          apart := h.apart
          owned := h.owned
          accounted := h.accounted
          sorted := h.sorted
          tried := h.tried
          detached_sorted := h.detached_sorted }
    | @snoc _ as tail hretry =>
      cases retryHead with
      | none =>
        have hnil := hretry.eq_nil_iff.mpr rfl
        simp at hnil
      | some head =>
        obtain ⟨m, hm⟩ := Option.isSome_iff_exists.mp (hretry.isSome (a := tail) (by simp))
        have hnodup := h.nodup
        simp only [List.nodup_append, List.mem_append, List.mem_singleton] at hnodup
        have htail : tail ∉ as := fun hmem => hnodup.1.1.2.2 tail hmem tail rfl rfl
        have htail' : tail ∉ chain := fun hmem =>
          hnodup.2.2 tail (Or.inl (Or.inr rfl)) tail hmem rfl
        have horder : [] ++ ([] ++ []) ++ (as ++ [tail] ++ chain) =
            as ++ [tail] ++ ([] ++ []) ++ chain := by
          simp
        refine ⟨_, by
          simp only [AcctQueue.splice, hpc, setNext_eq hm, Option.bind_eq_bind, Option.bind_some]
          rfl, ?_⟩
        refine
          { chain_list := ?_
            pass_list := .idle
            nodup := horder ▸ h.nodup
            held := horder ▸ h.held.frame (by simp) _
            apart := h.apart
            owned := fun b hb => horder ▸ h.owned b (isSome_of_update (by rw [hm]; rfl) hb)
            accounted := horder ▸ h.accounted
            sorted := horder ▸ h.sorted
            tried := h.tried
            detached_sorted := h.detached_sorted }
        refine segment_append_iff.mpr ⟨s.globalAcctChain, ?_, h.chain_list.frame htail' _⟩
        exact hretry.relink htail { m with next := s.globalAcctChain }

/-- **Every piece of work can be done**, and leaves the lists in order. -/
theorem exec_ordered {ev : QueueEvent} (h : Ordered s current rest retry chain)
    (henabled : s.Enabled ev) :
    ∃ s' current' rest' retry' chain', s.exec ev = some s' ∧
      Ordered s' current' rest' retry' chain' := by
  cases ev with
  | malloc thread a =>
    obtain ⟨s', hs', h'⟩ := h.malloc henabled.1 henabled.2
    exact ⟨s', _, _, _, _, hs', h'⟩
  | submit thread =>
    obtain ⟨a, ha⟩ := Option.isSome_iff_exists.mp henabled
    obtain ⟨s', hs', h'⟩ := h.submit ha
    exact ⟨s', _, _, _, _, hs', h'⟩
  | detach =>
    obtain ⟨s', hs', h'⟩ := h.detach henabled
    exact ⟨s', _, _, _, _, hs', h'⟩
  | next =>
    obtain ⟨e, retryHead, retryTail, hpc⟩ := henabled
    obtain ⟨s', rest', hs', -, h'⟩ := h.takeNext hpc
    exact ⟨s', _, _, _, _, hs', h'⟩
  | attempt outcome =>
    obtain ⟨e, next, retryHead, retryTail, hpc⟩ := henabled
    obtain rfl : current = [e] := by
      have hpass := h.pass_list
      rw [hpc] at hpass
      cases hpass
      rfl
    obtain ⟨n, hn⟩ := Option.isSome_iff_exists.mp (h.isSome (a := e) (by simp))
    cases hattempt : n.attempt outcome with
    | mk n' done =>
      cases done with
      | true =>
        obtain ⟨s', hs', h'⟩ := h.tryEntry_done hpc hn hattempt
        exact ⟨s', _, _, _, _, hs', h'⟩
      | false =>
        obtain ⟨s', hs', h'⟩ := h.tryEntry_again hpc hn hattempt
        exact ⟨s', _, _, _, _, hs', h'⟩
  | splice =>
    obtain ⟨retryHead, retryTail, hpc⟩ := henabled
    obtain ⟨s', hs', h'⟩ := h.splice hpc
    exact ⟨s', _, _, _, _, hs', h'⟩

/-- What was done could be done. -/
theorem enabled_of_exec {s' : AcctQueue} {ev : QueueEvent} (h : s.exec ev = some s') :
    s.Enabled ev := by
  cases ev with
  | malloc thread a =>
    simp only [exec, AcctQueue.malloc] at h
    split at h
    · cases h
    · rename_i hnot
      push Not at hnot
      simpa [Enabled] using hnot
  | submit thread =>
    cases hheld : s.held thread with
    | none => simp [exec, AcctQueue.submit, hheld] at h
    | some a => simp [Enabled, hheld]
  | detach =>
    cases hpc : s.pc <;> simp_all [exec, AcctQueue.detach, Enabled]
  | next =>
    cases hpc : s.pc with
    | idle | entry => simp [exec, AcctQueue.takeNext, hpc] at h
    | loop e retryHead retryTail =>
      cases e with
      | none => simp [exec, AcctQueue.takeNext, hpc] at h
      | some e => exact ⟨e, retryHead, retryTail, hpc⟩
  | attempt outcome =>
    cases hpc : s.pc with
    | idle | loop => simp [exec, AcctQueue.tryEntry, hpc] at h
    | entry e next retryHead retryTail => exact ⟨e, next, retryHead, retryTail, hpc⟩
  | splice =>
    cases hpc : s.pc with
    | idle | entry => simp [exec, AcctQueue.splice, hpc] at h
    | loop e retryHead retryTail =>
      cases e with
      | none => exact ⟨retryHead, retryTail, hpc⟩
      | some e => simp [exec, AcctQueue.splice, hpc] at h

end Work

/-! ## Runs -/

/-- The lists are in order. -/
def InOrder (s : AcctQueue) : Prop :=
  ∃ current rest retry chain, Ordered s current rest retry chain

theorem inOrder_init : InOrder init := by
  refine ⟨[], [], [], [], ?_⟩
  exact
    { chain_list := rfl
      pass_list := .idle
      nodup := .nil
      held := by rintro thread a ⟨⟩
      apart := by rintro thread thread' a ⟨⟩
      owned := by
        intro a ha
        cases ha
      accounted := .nil
      sorted := .nil
      tried := rfl
      detached_sorted := .nil }

theorem inOrder_step {s s' : AcctQueue} {ev : QueueEvent} (hstep : Step s ev s') (h : InOrder s) :
    InOrder s' := by
  obtain ⟨current, rest, retry, chain, h⟩ := h
  obtain ⟨s₁, current', rest', retry', chain', hs₁, h'⟩ := exec_ordered h (enabled_of_exec hstep)
  obtain rfl : s₁ = s' := Option.some.inj (hs₁.symm.trans hstep)
  exact ⟨current', rest', retry', chain', h'⟩

/-- What the queue should be: when no pass is running, the chain is a list, what was submitted is
committed and freed once or in the chain once, and the chain is in the order of submission; a pass
tries what it began with, in that order; and no piece of work goes wrong. -/
structure Lossless (s : AcctQueue) : Prop where
  /-- The chain ends, and the memory holds its entries and those not yet submitted, no others. -/
  chain_list : s.pc = .idle → ∃ chain, Segment AcctNode.next s.heap s.globalAcctChain chain none ∧
    chain.Nodup ∧ chain.map s.ticket = s.pending ∧
    ∀ a, (s.heap a).isSome ↔ (∃ thread, s.held thread = some a) ∨ a ∈ chain
  /-- Each entry is in one place, once. -/
  accounted : s.pc = .idle → (s.committed ++ s.pending).Perm (List.range s.submitted)
  sorted : s.pc = .idle → s.pending.Pairwise (· < ·)
  /-- A pass has tried the first of the entries that it began with, and in the end all. -/
  tried : s.attempted <+: s.detached
  tried_all : s.pc = .idle → s.attempted = s.detached
  detached_sorted : s.detached.Pairwise (· < ·)
  total : ∀ ev, s.Enabled ev → (s.exec ev).isSome

theorem lossless_of_inOrder {s : AcctQueue} (h : InOrder s) : Lossless s := by
  obtain ⟨current, rest, retry, chain, h⟩ := h
  have hidle : s.pc = .idle → current = [] ∧ rest = [] ∧ retry = [] := by
    intro hpc
    have hpass := h.pass_list
    rw [hpc] at hpass
    cases hpass
    exact ⟨rfl, rfl, rfl⟩
  refine
    { chain_list := ?_
      accounted := ?_
      sorted := ?_
      tried := ⟨_, h.tried⟩
      tried_all := ?_
      detached_sorted := h.detached_sorted
      total := ?_ }
  · intro hpc
    obtain ⟨rfl, rfl, rfl⟩ := hidle hpc
    refine ⟨chain, h.chain_list, by simpa using h.nodup, h.pending_eq.symm, fun a => ⟨?_, ?_⟩⟩
    · intro ha
      simpa using h.owned a ha
    · rintro (⟨thread, hthread⟩ | hmem)
      · obtain ⟨⟨n, hn, -⟩, -⟩ := h.held thread a hthread
        rw [hn, Option.isSome_some]
      · exact h.chain_list.isSome hmem
  · intro hpc
    obtain ⟨rfl, rfl, rfl⟩ := hidle hpc
    rw [h.pending_eq]
    exact h.accounted
  · intro hpc
    obtain ⟨rfl, rfl, rfl⟩ := hidle hpc
    rw [h.pending_eq]
    exact h.sorted
  · intro hpc
    obtain ⟨rfl, rfl, rfl⟩ := hidle hpc
    have htried := h.tried
    rwa [List.append_nil, List.map_nil, List.append_nil] at htried
  · intro ev henabled
    obtain ⟨s', _, _, _, _, hs', -⟩ := exec_ordered h henabled
    rw [hs', Option.isSome_some]

/-- **The queue loses nothing and keeps the order**, whichever way submissions and passes are
interleaved and tries end. -/
theorem queue_lossless {evs : List QueueEvent} {s : AcctQueue} (hrun : Run Step init evs s) :
    Lossless s :=
  lossless_of_inOrder
    (@Run.invariant _ _ Step InOrder (fun _ _ _ => inOrder_step) _ _ _ hrun inOrder_init)

/-- Two threads submit three records, the third while the first is delayed and the second taken. -/
def threeRecords : List QueueEvent :=
  let delayed : Outcome := ⟨true, true, fun _ => .later⟩
  let taken : Outcome := ⟨true, true, fun _ => .ok⟩
  [.malloc 0 0, .malloc 1 1, .submit 1, .submit 0, .detach, .next, .attempt delayed, .malloc 1 2,
    .submit 1, .next, .attempt taken, .splice]

theorem queue_lossless_threeRecords :
    ∃ s, Run Step init threeRecords s ∧ s.pending = [0, 2] ∧ s.committed = [1] ∧ Lossless s := by
  obtain ⟨s, hs⟩ := Option.isSome_iff_exists.mp
    (show (threeRecords.foldlM exec init).isSome by decide)
  have hfields : (threeRecords.foldlM exec init).map (fun s => (s.pending, s.committed)) =
      some ([0, 2], [1]) := by
    decide
  rw [hs, Option.map_some, Option.some.injEq, Prod.mk.injEq] at hfields
  exact ⟨s, .of_foldlM hs, hfields.1, hfields.2, queue_lossless (.of_foldlM hs)⟩

end AcctQueue

end Sweetspot
