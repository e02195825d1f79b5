import Mathlib.Algebra.GroupWithZero.Nat
import Mathlib.Data.Int.Notation
import Sweetspot.Lib.NulString

/-!
# UAM messages

A request is a vector of strings, each with its NUL, in one datagram.  The parser copies the
datagram into a buffer that every message of the thread goes through, and finds the end of a string
by looking for a NUL.  It means to clear the buffer first, and clears as many octets as a pointer
has.  Which messages does that leave alone?

* `uamParseMsg`, `uamBuildMsg`: the parser with its buffer, and the builder.
* `uamParseMsg_eq_cut`: the strings found are the message cut at its NULs, with what is behind it in
  the buffer.
* `isolated_iff`: a message is parsed the same after all histories unless its last string runs on
  into the octets that earlier messages may have left.
* `roundTrips_iff`: what the builder makes is parsed as it was unless it fills the receive buffer.
-/

namespace Sweetspot

open NulString

def SW_UAM_ARG_MAX : ℕ := 32
def SW_UAM_MSG_SIZE : ℕ := 512

/-- `sizeof(plaintext)` where `plaintext` is a parameter: the size of a pointer. -/
def sizeofPointer : ℕ := 8

/-! ## The buffer -/

/-- The buffer of `sw_uam_parse_msg`.  Its last two octets are never written: a message that is
copied leaves them out. -/
structure Plaintext where
  octets : List UInt8
  length_eq : octets.length = SW_UAM_MSG_SIZE
  end_eq : octets.drop (SW_UAM_MSG_SIZE - 2) = [0, 0]

/-- A static buffer starts as zeros. -/
def Plaintext.zeros : Plaintext where
  octets := List.replicate SW_UAM_MSG_SIZE 0
  length_eq := List.length_replicate
  end_eq := by rw [List.drop_replicate]; rfl

/-- What the buffer holds behind a message of `n` octets copied into it. -/
def Plaintext.behind (plaintext : Plaintext) (n : ℕ) : List UInt8 :=
  (List.replicate sizeofPointer 0 ++ plaintext.octets.drop sizeofPointer).drop n

theorem Plaintext.behind_of_le (plaintext : Plaintext) {n : ℕ} (hn : sizeofPointer ≤ n) :
    plaintext.behind n = plaintext.octets.drop n := by
  rw [behind, List.drop_append, List.drop_eq_nil_of_le (by rwa [List.length_replicate]),
    List.nil_append, List.length_replicate, List.drop_drop, Nat.add_sub_cancel' hn]

theorem Plaintext.length_append_behind (plaintext : Plaintext) {cyphertext : List UInt8}
    (h : cyphertext.length < SW_UAM_MSG_SIZE - 1) :
    (cyphertext ++ plaintext.behind cyphertext.length).length = SW_UAM_MSG_SIZE := by
  have hlength := plaintext.length_eq
  rw [SW_UAM_MSG_SIZE] at *
  rw [behind, List.length_append, List.length_drop, List.length_append, List.length_replicate,
    List.length_drop, hlength, sizeofPointer]
  omega

theorem Plaintext.drop_append_behind (plaintext : Plaintext) {cyphertext : List UInt8}
    (h : cyphertext.length < SW_UAM_MSG_SIZE - 1) :
    (cyphertext ++ plaintext.behind cyphertext.length).drop (SW_UAM_MSG_SIZE - 2) = [0, 0] := by
  have hend := plaintext.end_eq
  rw [SW_UAM_MSG_SIZE] at *
  have hsplit : cyphertext.length + (510 - cyphertext.length) = 510 := by omega
  rw [List.drop_append, List.drop_eq_nil_of_le (by omega), List.nil_append, behind, List.drop_drop,
    hsplit, ← behind, plaintext.behind_of_le (by decide), hend]

/-- `decrypt_message`, which copies: `none` is `-1`. -/
def decryptMessage (cyphertext : List UInt8) (plaintext : Plaintext) : Option Plaintext :=
  if h : cyphertext.length ≥ SW_UAM_MSG_SIZE - 1 then none
  else some {
    octets := cyphertext ++ plaintext.behind cyphertext.length
    length_eq := plaintext.length_append_behind (by omega)
    end_eq := plaintext.drop_append_behind (by omega) }

/-- `encrypt_message`, which copies as well. -/
def encryptMessage (plaintext : List UInt8) (cypherLen : ℕ) : Option (List UInt8) :=
  if plaintext.length ≥ cypherLen then none else some plaintext

/-! ## Parsing -/

/-- The loop of `sw_uam_parse_msg` from offset `p`, with `slots` entries of `argv` left before it
overflows: the strings it finds and what the call returns. -/
def argLoop (plaintext : List UInt8) (rc : ℕ) : ℕ → ℕ → List (List UInt8) × ℤ
  | 0, p => if p < rc then ([], -1) else ([], 0)
  | slots + 1, p =>
    if p < rc then
      let arg := str (plaintext.drop p)
      let rest := argLoop plaintext rc slots (p + arg.length + 1)
      (arg :: rest.1, rest.2)
    else ([], 0)

/-- `sw_uam_parse_msg`: the buffer it leaves, the entries of `argv` it sets to strings and what it
returns. -/
def uamParseMsg (plaintext : Plaintext) (cyphertext : List UInt8) :
    Plaintext × List (List UInt8) × ℤ :=
  match decryptMessage cyphertext plaintext with
  | none => (plaintext, [], -1)
  | some plaintext => (plaintext, argLoop plaintext.octets cyphertext.length (SW_UAM_ARG_MAX - 1) 0)

/-- The buffer after the messages of `history`. -/
def plaintextAfter (history : List (List UInt8)) : Plaintext :=
  history.foldl (fun plaintext cyphertext => (uamParseMsg plaintext cyphertext).1) .zeros

/-! ## Building -/

/-- The loop of `sw_uam_build_msg` with `l` octets used. -/
def buildLoop : ℕ → ℕ → List (List UInt8) → Option (List UInt8)
  | _, _, [] => some []
  | 0, _, _ :: _ => none
  | slots + 1, l, arg :: argv =>
    if l + arg.length + 1 > SW_UAM_MSG_SIZE - 1 then none
    else (buildLoop slots (l + arg.length + 1) argv).map fun msg => arg ++ 0 :: msg

/-- `sw_uam_build_msg`. -/
def uamBuildMsg (argv : List (List UInt8)) : Option (List UInt8) := do
  let plaintext ← buildLoop (SW_UAM_ARG_MAX - 1) 0 argv
  encryptMessage plaintext SW_UAM_MSG_SIZE

/-! ## What the parser finds -/

/-- The two values the parser returns. -/
def parseRc (complete : Bool) : ℤ := if complete then 0 else -1

theorem parseRc_injective : Function.Injective parseRc := by
  intro a b hab
  cases a <;> cases b
  · rfl
  · cases hab
  · cases hab
  · rfl

theorem argLoop_of_le {plaintext : List UInt8} {rc p : ℕ} (slots : ℕ) (hp : rc ≤ p) :
    argLoop plaintext rc slots p = ([], 0) := by
  cases slots with
  | zero => rw [argLoop, if_neg (by omega)]
  | succ slots => rw [argLoop, if_neg (by omega)]

/-- **The loop cuts the message**, with what is behind it in the buffer. -/
theorem argLoop_eq_cut (msg tail : List UInt8) (slots p : ℕ) :
    argLoop (msg ++ tail) msg.length slots p =
      ((cut slots (msg.drop p) tail).1, parseRc (cut slots (msg.drop p) tail).2) := by
  induction slots generalizing p with
  | zero =>
    by_cases hp : p < msg.length
    · have hne : msg.drop p ≠ [] := by simpa using hp
      rw [argLoop, if_pos hp, cut_zero hne]
      rfl
    · rw [argLoop_of_le _ (by omega), List.drop_eq_nil_of_le (by omega), cut_nil]
      rfl
  | succ slots ih =>
    by_cases hp : p < msg.length
    · have hne : msg.drop p ≠ [] := by simpa using hp
      have hdrop : (msg ++ tail).drop p = msg.drop p ++ tail :=
        List.drop_append_of_le_length (by omega)
      rw [argLoop, if_pos hp, hdrop]
      have hlen : (msg.drop p).length = msg.length - p := List.length_drop
      rcases notMem_or_eq_append (msg.drop p) with hs | ⟨pre, rest, hs, hpre⟩
      · -- the last string, which runs on
        rw [cut_of_notMem hs hne, str_append_of_notMem hs]
        simp only
        rw [argLoop_of_le _ (by rw [List.length_append]; omega)]
        rfl
      · have hnext : msg.drop (p + pre.length + 1) = rest := by
          rw [Nat.add_assoc, ← List.drop_drop, hs]
          simp
        rw [hs, List.append_assoc, List.cons_append, str_append_nul hpre, cut_append_nul hpre]
        simp only
        rw [ih, hnext]
    · rw [argLoop_of_le _ (by omega), List.drop_eq_nil_of_le (by omega), cut_nil]
      rfl

section

variable {plaintext : Plaintext} {msg : List UInt8}

theorem uamParseMsg_of_le (h : SW_UAM_MSG_SIZE - 1 ≤ msg.length) :
    uamParseMsg plaintext msg = (plaintext, [], -1) := by
  rw [uamParseMsg, decryptMessage, dif_pos h]

/-- **The strings are the message cut at its NULs**, with what is behind it in the buffer. -/
theorem uamParseMsg_eq_cut (h : msg.length < SW_UAM_MSG_SIZE - 1) :
    (uamParseMsg plaintext msg).2 =
      ((cut (SW_UAM_ARG_MAX - 1) msg (plaintext.behind msg.length)).1,
        parseRc (cut (SW_UAM_ARG_MAX - 1) msg (plaintext.behind msg.length)).2) := by
  rw [uamParseMsg, decryptMessage, dif_neg (by omega)]
  exact argLoop_eq_cut msg _ _ 0

theorem octets_uamParseMsg (h : msg.length < SW_UAM_MSG_SIZE - 1) :
    (uamParseMsg plaintext msg).1.octets = msg ++ plaintext.behind msg.length := by
  rw [uamParseMsg, decryptMessage, dif_neg (by omega)]

/-! ## What is behind a message -/

/-- The octets that are cleared end a short message. -/
theorem str_behind_of_lt {n : ℕ} (hn : n < sizeofPointer) : str (plaintext.behind n) = [] := by
  rw [Plaintext.behind, List.drop_append_of_le_length (by rw [List.length_replicate]; omega),
    List.drop_replicate]
  obtain ⟨k, hk⟩ : ∃ k, sizeofPointer - n = k + 1 := ⟨sizeofPointer - n - 1, by omega⟩
  rw [hk, List.replicate_succ]
  rfl

/-- The last octets of the buffer end the longest message. -/
theorem str_behind_longest : str (plaintext.behind (SW_UAM_MSG_SIZE - 2)) = [] := by
  rw [plaintext.behind_of_le (by decide), plaintext.end_eq]
  rfl

theorem str_behind_zeros (n : ℕ) : str (Plaintext.zeros.behind n) = [] := by
  have hzero : ∀ c ∈ Plaintext.zeros.behind n, c = 0 := by
    intro c hc
    rcases List.mem_append.mp (List.mem_of_mem_drop hc) with hc | hc
    · exact List.eq_of_mem_replicate hc
    · exact List.eq_of_mem_replicate (List.mem_of_mem_drop hc)
  cases hs : Plaintext.zeros.behind n with
  | nil => rfl
  | cons c s =>
    rw [hzero c (by simp [hs])]
    rfl

/-- After a message of one octet more, without a NUL, the octet behind is not zero. -/
theorem str_behind_ne_nil {n : ℕ} (hn : sizeofPointer ≤ n) (hlt : n + 1 < SW_UAM_MSG_SIZE - 1) :
    str ((plaintextAfter [List.replicate (n + 1) 1]).behind n) ≠ [] := by
  have hlen : (List.replicate (n + 1) (1 : UInt8)).length < SW_UAM_MSG_SIZE - 1 := by
    rwa [List.length_replicate]
  have hoctets := @octets_uamParseMsg .zeros _ hlen
  rw [Plaintext.behind_of_le _ hn]
  change str ((uamParseMsg .zeros (List.replicate (n + 1) 1)).1.octets.drop n) ≠ []
  rw [hoctets, List.replicate_succ', List.append_assoc, List.drop_left' List.length_replicate]
  simp [str]

/-! ## Isolation -/

/-- The message is parsed the same after all histories, and no string is longer than it is. -/
def Isolated (msg : List UInt8) : Prop :=
  (∀ history history', (uamParseMsg (plaintextAfter history) msg).2 =
    (uamParseMsg (plaintextAfter history') msg).2) ∧
  ∀ history, ∀ arg ∈ (uamParseMsg (plaintextAfter history) msg).2.1, arg.length ≤ msg.length

/-- Octets of earlier messages may stand behind the message. -/
def Trailed (msg : List UInt8) : Prop :=
  sizeofPointer ≤ msg.length ∧ msg.length < SW_UAM_MSG_SIZE - 2

theorem str_behind_of_not_trailed (hmsg : msg.length < SW_UAM_MSG_SIZE - 1) (h : ¬ Trailed msg) :
    str (plaintext.behind msg.length) = [] := by
  by_cases hshort : msg.length < sizeofPointer
  · exact str_behind_of_lt hshort
  · have hlongest : msg.length = SW_UAM_MSG_SIZE - 2 := by
      rw [Trailed, not_and, Nat.not_lt] at h
      have := h (by omega)
      omega
    rw [hlongest]
    exact str_behind_longest

/-- **A message is isolated** unless its last string runs on into what earlier messages may have
left. -/
theorem isolated_iff (msg : List UInt8) :
    Isolated msg ↔ ¬ (Trailed msg ∧ RunsOn (SW_UAM_ARG_MAX - 1) msg) := by
  constructor
  · rintro ⟨hsame, -⟩ ⟨htrailed, hruns⟩
    have hmsg : msg.length < SW_UAM_MSG_SIZE - 1 := by
      have := htrailed.2
      omega
    have hparsed := hsame [] [List.replicate (msg.length + 1) 1]
    rw [uamParseMsg_eq_cut hmsg, uamParseMsg_eq_cut hmsg, Prod.mk.injEq] at hparsed
    have hcut := Prod.ext hparsed.1 (parseRc_injective hparsed.2)
    have hstr := (cut_eq_cut_iff.mp hcut).resolve_left (not_not.mpr hruns)
    have hnext : msg.length + 1 < SW_UAM_MSG_SIZE - 1 := by
      have := htrailed.2
      omega
    exact str_behind_ne_nil htrailed.1 hnext (hstr.symm.trans (str_behind_zeros _))
  · intro h
    by_cases hmsg : msg.length < SW_UAM_MSG_SIZE - 1
    · have hquiet : ∀ history, ¬ RunsOn (SW_UAM_ARG_MAX - 1) msg ∨
          str ((plaintextAfter history).behind msg.length) = [] := by
        intro history
        by_cases hruns : RunsOn (SW_UAM_ARG_MAX - 1) msg
        · exact Or.inr (str_behind_of_not_trailed hmsg fun htrailed => h ⟨htrailed, hruns⟩)
        · exact Or.inl hruns
      refine ⟨fun history history' => ?_, fun history => ?_⟩
      · rw [uamParseMsg_eq_cut hmsg, uamParseMsg_eq_cut hmsg]
        have hcut : cut (SW_UAM_ARG_MAX - 1) msg ((plaintextAfter history).behind msg.length) =
            cut (SW_UAM_ARG_MAX - 1) msg ((plaintextAfter history').behind msg.length) := by
          rw [cut_eq_cut_iff]
          rcases hquiet history with hruns | hnil
          · exact Or.inl hruns
          · exact (hquiet history').imp_right fun hnil' => hnil.trans hnil'.symm
        rw [hcut]
      · rw [uamParseMsg_eq_cut hmsg]
        exact length_le_of_mem_cut (hquiet history)
    · have hlong : SW_UAM_MSG_SIZE - 1 ≤ msg.length := by omega
      refine ⟨fun history history' => ?_, fun history => ?_⟩
      · rw [uamParseMsg_of_le hlong, uamParseMsg_of_le hlong]
      · rw [uamParseMsg_of_le hlong]
        simp

/-- A stop request without its last NUL. -/
def stopMsg : List UInt8 := [68, 78, 0, 49, 48, 46, 48, 46, 48, 46, 49]

/-- A start request for another address, which is the first one with a digit more. -/
def startMsg : List UInt8 := [85, 80, 0, 49, 48, 46, 48, 46, 48, 46, 49, 50, 0]

/-- Messages do leak into each other: after the start request the stop request is one for the
address that was started. -/
theorem isolated_stopMsg : ¬ ∀ msg, Isolated msg := by
  intro h
  have hparsed := congrArg Prod.fst ((h stopMsg).1 [] [startMsg])
  have hfirst : (uamParseMsg (plaintextAfter []) stopMsg).2.1 =
      [[68, 78], [49, 48, 46, 48, 46, 48, 46, 49]] := by
    decide +kernel
  have hafter : (uamParseMsg (plaintextAfter [startMsg]) stopMsg).2.1 =
      [[68, 78], [49, 48, 46, 48, 46, 48, 46, 49, 50]] := by
    decide +kernel
  rw [hfirst, hafter] at hparsed
  exact absurd hparsed (by decide)

/-! ## Messages that were built -/

theorem buildLoop_eq_some {slots l : ℕ} {argv : List (List UInt8)} {msg : List UInt8}
    (h : buildLoop slots l argv = some msg) : msg = joined argv ∧ argv.length ≤ slots := by
  induction argv generalizing slots l msg with
  | nil =>
    cases slots <;> cases h <;> exact ⟨rfl, Nat.zero_le _⟩
  | cons arg argv ih =>
    cases slots with
    | zero => cases h
    | succ slots =>
      rw [buildLoop] at h
      split at h
      · cases h
      · obtain ⟨rest, hrest, rfl⟩ := Option.map_eq_some_iff.mp h
        obtain ⟨rfl, hslots⟩ := ih hrest
        refine ⟨by simp [joined], ?_⟩
        rw [List.length_cons]
        omega

theorem uamBuildMsg_eq_some {argv : List (List UInt8)} (h : uamBuildMsg argv = some msg) :
    msg = joined argv ∧ argv.length ≤ SW_UAM_ARG_MAX - 1 ∧ msg.length < SW_UAM_MSG_SIZE := by
  obtain ⟨text, hloop, hencrypt⟩ := Option.bind_eq_some_iff.mp h
  obtain ⟨rfl, hslots⟩ := buildLoop_eq_some hloop
  rw [encryptMessage] at hencrypt
  split at hencrypt
  · cases hencrypt
  · cases hencrypt
    exact ⟨rfl, hslots, by omega⟩

/-- **What the builder makes is parsed as it was**, whatever the buffer holds, if it is short enough
for the parser. -/
theorem uamParseMsg_uamBuildMsg {argv : List (List UInt8)} (hargv : ∀ arg ∈ argv, 0 ∉ arg)
    (hbuild : uamBuildMsg argv = some msg) (hmsg : msg.length < SW_UAM_MSG_SIZE - 1) :
    (uamParseMsg plaintext msg).2 = (argv, 0) := by
  obtain ⟨rfl, hslots, -⟩ := uamBuildMsg_eq_some hbuild
  rw [uamParseMsg_eq_cut hmsg, cut_joined hargv hslots]
  rfl

/-! ## The server -/

/-- What the server takes a datagram for. -/
inductive UamReceived
  | nothing
  | tooLarge
  | malformed
  | request (argv : List (List UInt8))

/-- `__recv` and `__proc` of the server, up to the request.  The datagram is cut at the size of the
buffer, so one that fills it may have been longer. -/
def uamReceive (plaintext : Plaintext) (datagram : List UInt8) : UamReceived :=
  let cyphertext := datagram.take (SW_UAM_MSG_SIZE - 1)
  if cyphertext.length = 0 then .nothing
  else if cyphertext.length = SW_UAM_MSG_SIZE - 1 then .tooLarge
  else
    match uamParseMsg plaintext cyphertext with
    | (_, argv, rc) => if rc = -1 then .malformed else .request argv

/-- The message leads back to the vector, and the server does not drop it for its size. -/
structure RoundTrips (argv : List (List UInt8)) (msg : List UInt8) : Prop where
  parsed : ∀ plaintext, (uamParseMsg plaintext msg).2 = (argv, 0)
  received : ∀ plaintext, uamReceive plaintext msg ≠ .tooLarge

theorem uamReceive_of_lt (hne : msg ≠ []) (hmsg : msg.length < SW_UAM_MSG_SIZE - 1) :
    uamReceive plaintext msg =
      if (uamParseMsg plaintext msg).2.2 = -1 then .malformed
      else .request (uamParseMsg plaintext msg).2.1 := by
  have htake : msg.take (SW_UAM_MSG_SIZE - 1) = msg := List.take_of_length_le (Nat.le_of_lt hmsg)
  have hpos : msg.length ≠ 0 := fun h => hne (List.length_eq_zero_iff.mp h)
  unfold uamReceive
  rw [htake]
  dsimp only
  rw [if_neg hpos, if_neg (Nat.ne_of_lt hmsg)]

/-- **The round trip.**  What the builder makes of a vector of strings is taken for that vector
again, unless it has as many octets as the receive buffer: then neither the parser nor the server
takes it. -/
theorem roundTrips_iff {argv : List (List UInt8)} (hargv : ∀ arg ∈ argv, 0 ∉ arg)
    (hbuild : uamBuildMsg argv = some msg) :
    RoundTrips argv msg ↔ (argv.map fun arg => arg.length + 1).sum ≠ SW_UAM_MSG_SIZE - 1 := by
  obtain ⟨hmsg, -, hlt⟩ := uamBuildMsg_eq_some hbuild
  have hlength : (argv.map fun arg => arg.length + 1).sum = msg.length := by
    rw [hmsg, joined, List.length_flatten, List.map_map]
    simp [Function.comp_def]
  rw [hlength]
  constructor
  · intro h hfull
    have hparsed := h.parsed .zeros
    rw [uamParseMsg_of_le (Nat.le_of_eq hfull.symm)] at hparsed
    cases congrArg Prod.snd hparsed
  · intro hne
    have hshort : msg.length < SW_UAM_MSG_SIZE - 1 := by omega
    have hparsed : ∀ plaintext, (uamParseMsg plaintext msg).2 = (argv, 0) :=
      fun _ => uamParseMsg_uamBuildMsg hargv hbuild hshort
    refine ⟨hparsed, fun plaintext => ?_⟩
    by_cases hnil : msg = []
    · rw [hnil]
      intro h
      cases h
    · rw [uamReceive_of_lt hnil hshort, hparsed plaintext]
      intro h
      cases h

end

theorem roundTrips_iff_stop :
    (∀ arg ∈ [[68, 78], [49, 48, 46, 48, 46, 48, 46, 49]], (0 : UInt8) ∉ arg) ∧
      uamBuildMsg [[68, 78], [49, 48, 46, 48, 46, 48, 46, 49]] = some (stopMsg ++ [0]) ∧
      (RoundTrips [[68, 78], [49, 48, 46, 48, 46, 48, 46, 49]] (stopMsg ++ [0]) ↔
        ([[68, 78], [49, 48, 46, 48, 46, 48, 46, 49]].map fun arg : List UInt8 =>
          arg.length + 1).sum ≠ SW_UAM_MSG_SIZE - 1) := by
  have hargv : ∀ arg ∈ [[68, 78], [49, 48, 46, 48, 46, 48, 46, 49]], (0 : UInt8) ∉ arg := by
    decide
  have hbuild : uamBuildMsg [[68, 78], [49, 48, 46, 48, 46, 48, 46, 49]] =
      some (stopMsg ++ [0]) := by
    decide
  exact ⟨hargv, hbuild, roundTrips_iff hargv hbuild⟩

/-- One string is built into a message if there is room for it. -/
theorem uamBuildMsg_singleton {arg : List UInt8} (h : arg.length + 1 < SW_UAM_MSG_SIZE) :
    uamBuildMsg [arg] = some (arg ++ [0]) := by
  have hloop : buildLoop (SW_UAM_ARG_MAX - 1) 0 [arg] = some (arg ++ [0]) := by
    show (if 0 + arg.length + 1 > SW_UAM_MSG_SIZE - 1 then none else _) = _
    rw [if_neg (by omega)]
    rfl
  have hlength : (arg ++ [0]).length = arg.length + 1 := List.length_append
  show (buildLoop (SW_UAM_ARG_MAX - 1) 0 [arg]).bind _ = _
  rw [hloop, Option.bind_some, encryptMessage, if_neg (by omega)]

/-- A string of 510 octets is built into a message and not parsed. -/
theorem roundTrips_full :
    ¬ ∀ argv msg, (∀ arg ∈ argv, (0 : UInt8) ∉ arg) → uamBuildMsg argv = some msg →
      RoundTrips argv msg := by
  intro h
  obtain ⟨arg, hlength, hnul⟩ : ∃ arg : List UInt8, arg.length = 510 ∧ 0 ∉ arg :=
    ⟨List.replicate 510 65, List.length_replicate,
      fun hmem => absurd (List.eq_of_mem_replicate hmem) (by decide)⟩
  have hbuild : uamBuildMsg [arg] = some (arg ++ [0]) :=
    uamBuildMsg_singleton (by rw [hlength]; decide)
  have hparsed := (h [arg] _ (by simpa using hnul) hbuild).parsed .zeros
  have hfull : (arg ++ [0]).length = 511 := by rw [List.length_append, hlength]; rfl
  rw [uamParseMsg_of_le (by rw [hfull]; decide)] at hparsed
  cases congrArg Prod.snd hparsed

end Sweetspot
