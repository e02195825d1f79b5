import Mathlib.Data.List.Basic
import Mathlib.Data.UInt
import Sweetspot.Lib.KeyedTable

/-!
# The hash table

All tables of the program are of one kind: an array of chains of nodes, where a node keeps the hash
of its record beside it and keys are compared only where the hashes are equal.  The code that splits
and joins buckets is still there, but nothing calls it, so a table keeps the size it was made with.

* `lhNew`, `getrn`, `lhInsert`, `lhDelete`, `lhRetrieve`: the functions.
* `chase_before`, `chase_rest`: what the walk of `getrn` passes, and where it ends.
* `LhCall.run_spec`: what a call does, which is to rewrite the chain of one bucket.
-/

namespace Sweetspot

/-! ## The data -/

/-- `LHASH_NODE`, with the address `malloc` gave it. -/
structure LhashNode (ρ : Type*) where
  addr : ℕ
  data : ρ
  hash : UInt64
  sharedCnt : Int32

/-- The counters of a table that only `lh_stats` reads. -/
structure LhStats where
  numHashCalls : UInt64
  numCompCalls : UInt64
  numInsert : UInt64
  numReplace : UInt64
  numDelete : UInt64
  numNoDelete : UInt64
  numRetrieve : UInt64
  numRetrieveMiss : UInt64
  numHashComps : UInt64
  numHashNodeCrossAccs : UInt64

/-- `LHASH`, less what only `expand` and `contract` touch. -/
structure Lhash (ρ : Type*) where
  b : ℕ → List (LhashNode ρ)
  numNodes : UInt32
  numAllocNodes : UInt32
  p : UInt32
  pmax : UInt32
  numItems : UInt64
  stats : LhStats

def MIN_NODES : ℕ := 16777216

/-- `lh_new`, when there is memory for the table. -/
def lhNew (ρ : Type*) (m : ℕ) : Lhash ρ :=
  let size := UInt32.ofNat (if m = 0 then MIN_NODES else m)
  { b := fun _ => []
    numNodes := size
    numAllocNodes := size
    p := 0
    pmax := size
    numItems := 0
    stats := ⟨0, 0, 0, 0, 0, 0, 0, 0, 0, 0⟩ }

/-- The slot in which the walk of `getrn` ends: the nodes in front of it, the chain it points to,
and how often hashes and keys were compared on the way. -/
structure Slot (ρ : Type*) where
  before : List (LhashNode ρ)
  rest : List (LhashNode ρ)
  hashComps : UInt64
  compCalls : UInt64

/-- What `getrn` returns: `*rhash`, the index of the bucket, whose lock is `*spin`, and the slot. -/
structure Getrn (ρ : Type*) where
  lh : Lhash ρ
  hash : UInt64
  nn : ℕ
  slot : Slot ρ

section

variable {κ ρ : Type*}

/-- The bucket of a hash. -/
def Lhash.bucket (lh : Lhash ρ) (hash : UInt64) : ℕ :=
  let nn := hash.toNat % lh.pmax.toNat
  if nn < lh.p.toNat then hash.toNat % lh.numAllocNodes.toNat else nn

/-- The chain of bucket `i`, replaced. -/
def Lhash.setChain (lh : Lhash ρ) (i : ℕ) (chain : List (LhashNode ρ)) : Lhash ρ :=
  { lh with b := Function.update lh.b i chain }

/-- The records of a table in the order `lh_doall_arg` visits them: from the last bucket to the
first, each from the front of its chain. -/
def Lhash.items (lh : Lhash ρ) : List ρ :=
  (List.range lh.numNodes.toNat).reverse.flatMap fun i => (lh.b i).map LhashNode.data

variable (C : Comparator κ) (key : ρ → κ) (hash : κ → UInt64)

/-- The walk of `getrn` along a chain. -/
def chase (h : UInt64) (k : κ) : List (LhashNode ρ) → Slot ρ
  | [] => ⟨[], [], 0, 0⟩
  | n1 :: next =>
    if n1.hash ≠ h then
      let s := chase h k next
      { s with before := n1 :: s.before, hashComps := s.hashComps + 1 }
    else if C.comp (key n1.data) k = 0 then ⟨[], n1 :: next, 1, 1⟩
    else
      let s := chase h k next
      { s with
        before := n1 :: s.before, hashComps := s.hashComps + 1, compCalls := s.compCalls + 1 }

def getrn (lh : Lhash ρ) (k : κ) : Getrn ρ :=
  let h := hash k
  let nn := lh.bucket h
  let s := chase C key h k (lh.b nn)
  let stats := { lh.stats with
    numHashCalls := lh.stats.numHashCalls + 1
    numHashComps := lh.stats.numHashComps + s.hashComps
    numCompCalls := lh.stats.numCompCalls + s.compCalls }
  match s.rest with
  | [] => ⟨{ lh with stats := stats }, h, nn, s⟩
  | n1 :: next =>
    let n1 := { n1 with sharedCnt := n1.sharedCnt + 1 }
    let crossAccs := stats.numHashNodeCrossAccs
    let stats := { stats with
      numHashNodeCrossAccs := if n1.sharedCnt > 1 then crossAccs + 1 else crossAccs }
    let lh := { lh with stats := stats }
    ⟨lh.setChain nn (s.before ++ n1 :: next), h, nn, { s with rest := n1 :: next }⟩

/-- `lh_insert`, with what `malloc` returns if it is asked for a node. -/
def lhInsert (lh : Lhash ρ) (data : ρ) (malloc : Option ℕ) : Lhash ρ × Option ρ :=
  let g := getrn C key hash lh (key data)
  let stats := g.lh.stats
  match g.slot.rest with
  | [] =>
    match malloc with
    | none => (g.lh, none)
    | some addr =>
      let lh := g.lh.setChain g.nn (g.slot.before ++ [⟨addr, data, g.hash, 0⟩])
      let stats := { stats with numInsert := stats.numInsert + 1 }
      ({ lh with stats := stats, numItems := lh.numItems + 1 }, some data)
  | rn :: next =>
    let lh := g.lh.setChain g.nn
      (g.slot.before ++ { rn with data := data, sharedCnt := rn.sharedCnt - 1 } :: next)
    ({ lh with stats := { stats with numReplace := stats.numReplace + 1 } }, some rn.data)

/-- `lh_delete`. -/
def lhDelete (lh : Lhash ρ) (k : κ) : Lhash ρ × Option ρ :=
  let g := getrn C key hash lh k
  let stats := g.lh.stats
  match g.slot.rest with
  | [] => ({ g.lh with stats := { stats with numNoDelete := stats.numNoDelete + 1 } }, none)
  | nn :: next =>
    let lh := g.lh.setChain g.nn (g.slot.before ++ next)
    let stats := { stats with numDelete := stats.numDelete + 1 }
    ({ lh with stats := stats, numItems := lh.numItems - 1 }, some nn.data)

/-- `lh_retrieve`. -/
def lhRetrieve (lh : Lhash ρ) (k : κ) : Lhash ρ × Option ρ :=
  let g := getrn C key hash lh k
  let stats := g.lh.stats
  match g.slot.rest with
  | [] =>
    ({ g.lh with stats := { stats with numRetrieveMiss := stats.numRetrieveMiss + 1 } }, none)
  | rn :: next =>
    let lh := g.lh.setChain g.nn
      (g.slot.before ++ { rn with sharedCnt := rn.sharedCnt - 1 } :: next)
    ({ lh with stats := { stats with numRetrieve := stats.numRetrieve + 1 } }, some rn.data)

/-- A call of a function of the table. -/
inductive LhCall (κ ρ : Type*)
  | insert (data : ρ) (malloc : Option ℕ)
  | delete (k : κ)
  | retrieve (k : κ)
  deriving DecidableEq

/-- The key a call looks up. -/
def LhCall.target : LhCall κ ρ → κ
  | .insert data _ => key data
  | .delete k => k
  | .retrieve k => k

/-- The call, and what it returns. -/
def LhCall.run (lh : Lhash ρ) : LhCall κ ρ → Lhash ρ × Option ρ
  | .insert data malloc => lhInsert C key hash lh data malloc
  | .delete k => lhDelete C key hash lh k
  | .retrieve k => lhRetrieve C key hash lh k

/-- Calls one after the other, each with what it returns. -/
def runCalls (lh : Lhash ρ) : List (LhCall κ ρ) → Lhash ρ × List (LhCall κ ρ × Option ρ)
  | [] => (lh, [])
  | call :: calls =>
    let first := call.run C key hash lh
    let rest := runCalls first.1 calls
    (rest.1, (call, first.2) :: rest.2)

/-! ## The walk along a chain -/

variable {C key hash}

@[simp] theorem chase_append (h : UInt64) (k : κ) (chain : List (LhashNode ρ)) :
    (chase C key h k chain).before ++ (chase C key h k chain).rest = chain := by
  induction chain with
  | nil => rfl
  | cons n1 next ih =>
    rw [chase]
    split_ifs
    · rw [List.cons_append, ih]
    · rfl
    · rw [List.cons_append, ih]

/-- No node in front of the slot is the one looked for. -/
theorem chase_before {h : UInt64} {k : κ} {chain : List (LhashNode ρ)} {n : LhashNode ρ}
    (hn : n ∈ (chase C key h k chain).before) : ¬ (n.hash = h ∧ C.comp (key n.data) k = 0) := by
  induction chain with
  | nil => simp [chase] at hn
  | cons n1 next ih =>
    rw [chase] at hn
    split_ifs at hn with hhash hcomp
    · rcases List.mem_cons.1 hn with rfl | hn
      · exact fun hfound => hhash hfound.1
      · exact ih hn
    · simp at hn
    · rcases List.mem_cons.1 hn with rfl | hn
      · exact fun hfound => hcomp hfound.2
      · exact ih hn

/-- The node behind the slot is. -/
theorem chase_rest {h : UInt64} {k : κ} {chain : List (LhashNode ρ)} {n : LhashNode ρ}
    {next : List (LhashNode ρ)} (hrest : (chase C key h k chain).rest = n :: next) :
    n.hash = h ∧ C.comp (key n.data) k = 0 := by
  induction chain with
  | nil => simp [chase] at hrest
  | cons n1 after ih =>
    rw [chase] at hrest
    split_ifs at hrest with hhash hcomp
    · exact ih hrest
    · obtain ⟨rfl, -⟩ := List.cons.inj hrest
      exact ⟨not_not.1 hhash, hcomp⟩
    · exact ih hrest

/-! ## What a call does to the buckets -/

/-- `lh'` is `lh` with the chain of bucket `i` replaced, up to the counters. -/
structure Rewrites (lh lh' : Lhash ρ) (i : ℕ) (chain : List (LhashNode ρ)) : Prop where
  b : lh'.b = Function.update lh.b i chain
  numNodes : lh'.numNodes = lh.numNodes
  p : lh'.p = lh.p
  pmax : lh'.pmax = lh.pmax

theorem Rewrites.refl (lh : Lhash ρ) (i : ℕ) : Rewrites lh lh i (lh.b i) :=
  ⟨(Function.update_eq_self i lh.b).symm, rfl, rfl, rfl⟩

theorem Rewrites.setChain {lh lh' : Lhash ρ} {i : ℕ} {chain : List (LhashNode ρ)}
    (h : Rewrites lh lh' i chain) (chain' : List (LhashNode ρ)) :
    Rewrites lh (lh'.setChain i chain') i chain' :=
  ⟨by rw [Lhash.setChain, h.b, Function.update_idem], h.numNodes, h.p, h.pmax⟩

/-- What is found under a key, before the caller is counted as a reader. -/
def Lhash.slot (C : Comparator κ) (key : ρ → κ) (hash : κ → UInt64) (lh : Lhash ρ) (k : κ) :
    Slot ρ := chase C key (hash k) k (lh.b (lh.bucket (hash k)))

theorem slot_append (lh : Lhash ρ) (k : κ) :
    (lh.slot C key hash k).before ++ (lh.slot C key hash k).rest = lh.b (lh.bucket (hash k)) :=
  chase_append _ _ _

theorem getrn_of_nil {lh : Lhash ρ} {k : κ} (h : (lh.slot C key hash k).rest = []) :
    ∃ lh', getrn C key hash lh k = ⟨lh', hash k, lh.bucket (hash k), lh.slot C key hash k⟩ ∧
      Rewrites lh lh' (lh.bucket (hash k)) (lh.b (lh.bucket (hash k))) ∧
      lh'.numItems = lh.numItems := by
  have hrest : (chase C key (hash k) k (lh.b (lh.bucket (hash k)))).rest = [] := h
  simp only [getrn, hrest]
  exact ⟨_, rfl, ⟨(Rewrites.refl lh _).b, rfl, rfl, rfl⟩, rfl⟩

theorem getrn_of_cons {lh : Lhash ρ} {k : κ} {n : LhashNode ρ} {next : List (LhashNode ρ)}
    (h : (lh.slot C key hash k).rest = n :: next) :
    ∃ lh', getrn C key hash lh k = ⟨lh', hash k, lh.bucket (hash k),
        { lh.slot C key hash k with rest := { n with sharedCnt := n.sharedCnt + 1 } :: next }⟩ ∧
      (∃ chain, Rewrites lh lh' (lh.bucket (hash k)) chain) ∧ lh'.numItems = lh.numItems := by
  have hrest : (chase C key (hash k) k (lh.b (lh.bucket (hash k)))).rest = n :: next := h
  simp only [getrn, hrest]
  exact ⟨_, rfl, ⟨_, rfl, rfl, rfl, rfl⟩, rfl⟩

/-- The chain a call leaves, and what it returns, once the slot is found. -/
def LhCall.effect (h : UInt64) (s : Slot ρ) : LhCall κ ρ → List (LhashNode ρ) × Option ρ
  | .insert data malloc =>
    match s.rest with
    | [] =>
      match malloc with
      | none => (s.before, none)
      | some addr => (s.before ++ [⟨addr, data, h, 0⟩], some data)
    | n :: next => (s.before ++ { n with data := data } :: next, some n.data)
  | .delete _ =>
    match s.rest with
    | [] => (s.before, none)
    | n :: next => (s.before ++ next, some n.data)
  | .retrieve _ => (s.before ++ s.rest, s.rest.head?.map LhashNode.data)

/-- **What a call does.**  It rewrites one chain, and the count of the items follows its length. -/
theorem LhCall.run_spec (lh : Lhash ρ) (call : LhCall κ ρ) :
    (call.run C key hash lh).2 =
        (call.effect (hash (call.target key)) (lh.slot C key hash (call.target key))).2 ∧
      Rewrites lh (call.run C key hash lh).1 (lh.bucket (hash (call.target key)))
        (call.effect (hash (call.target key)) (lh.slot C key hash (call.target key))).1 ∧
      (call.run C key hash lh).1.numItems +
          UInt64.ofNat (lh.b (lh.bucket (hash (call.target key)))).length =
        lh.numItems + UInt64.ofNat (call.effect (hash (call.target key))
          (lh.slot C key hash (call.target key))).1.length := by
  have happend := @slot_append _ _ C key hash lh (call.target key)
  rcases hrest : (lh.slot C key hash (call.target key)).rest with - | ⟨n, next⟩
  · obtain ⟨lh', hgetrn, hwrites, hitems⟩ := getrn_of_nil hrest
    rw [hrest, List.append_nil] at happend
    have hwrites' := happend ▸ hwrites
    rcases call with ⟨data, - | addr⟩ | k | k <;>
      simp only [LhCall.target] at hrest happend hgetrn hwrites' ⊢ <;>
      simp only [LhCall.run, lhInsert, lhDelete, lhRetrieve, LhCall.effect, hgetrn, hrest]
    case nil.insert.none => exact ⟨trivial, hwrites', by rw [hitems, happend]⟩
    case nil.insert.some =>
      have happended := hwrites'.setChain
        ((lh.slot C key hash (key data)).before ++ [⟨addr, data, hash (key data), 0⟩])
      refine ⟨trivial, ⟨happended.b, happended.numNodes, happended.p, happended.pmax⟩, ?_⟩
      rw [List.length_append, happend]
      simp only [Lhash.setChain, hitems, List.length_singleton, UInt64.ofNat_add, UInt64.ofNat_one]
      grind
    case nil.delete =>
      refine ⟨trivial, ⟨hwrites'.b, hwrites'.numNodes, hwrites'.p, hwrites'.pmax⟩, ?_⟩
      rw [hitems, happend]
    case nil.retrieve =>
      rw [List.append_nil]
      refine ⟨rfl, ⟨hwrites'.b, hwrites'.numNodes, hwrites'.p, hwrites'.pmax⟩, ?_⟩
      rw [hitems, happend]
  · obtain ⟨lh', hgetrn, ⟨chain, hwrites⟩, hitems⟩ := getrn_of_cons hrest
    rw [hrest] at happend
    rcases call with ⟨data, malloc⟩ | k | k <;>
      simp only [LhCall.target] at hrest happend hgetrn hwrites ⊢ <;>
      simp only [LhCall.run, lhInsert, lhDelete, lhRetrieve, LhCall.effect, hgetrn, hrest,
        Int32.add_sub_cancel]
    case cons.insert =>
      have hset := hwrites.setChain
        ((lh.slot C key hash (key data)).before ++ { n with data := data } :: next)
      refine ⟨trivial, ⟨hset.b, hset.numNodes, hset.p, hset.pmax⟩, ?_⟩
      rw [← happend]
      simp [Lhash.setChain, hitems]
    case cons.delete =>
      have hset := hwrites.setChain ((lh.slot C key hash k).before ++ next)
      refine ⟨trivial, ⟨hset.b, hset.numNodes, hset.p, hset.pmax⟩, ?_⟩
      rw [← happend]
      simp only [Lhash.setChain, hitems, List.length_append, List.length_cons, UInt64.ofNat_add,
        UInt64.ofNat_one]
      grind
    case cons.retrieve =>
      have hset := hwrites.setChain ((lh.slot C key hash k).before ++ n :: next)
      refine ⟨rfl, ⟨hset.b, hset.numNodes, hset.p, hset.pmax⟩, ?_⟩
      rw [← happend]
      simp only [Lhash.setChain, hitems]

end

end Sweetspot
