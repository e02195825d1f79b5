import Sweetspot.Filter.Stored

/-!
# Numbers of a filter text

The scanner leaves what `atol` and an `int` make of a word of digits, and the fields of a rule are
8, 16 and 32 bits wide.

* `ComesToUnknownProto`, `filterParseRuleset_eq_crash`: the texts on which the parser dereferences
  `NULL`.
* `portnumsBounded_eq`: the ports of a set are never stored outside their array.
* `RuleText.Exact`, `RuleText.Fits`, `RuleText.exact_iff`: the rules that are stored number by
  number, and what their numbers have to be for that.
* `represents_iff`: which texts are represented or rejected.
-/

namespace Sweetspot

/-! ## Unknown protocols -/

namespace FilterParser

open TokenReader

variable {net : NetDb}

theorem neverFails_token {α : Type} (f : Token → Option α) :
    NeverFails ParseFailure.crash (token f .reject : FilterReader α) :=
  neverFails_tryToken (neverFails_pure _) (neverFails_fail nofun)

theorem neverFails_expect (t : Token) :
    NeverFails ParseFailure.crash (expect t .reject : FilterReader Unit) :=
  neverFails_ifNext (neverFails_pure _ ()) (neverFails_fail nofun)

/-- A check that may fail does not crash. -/
theorem neverFails_ite {α : Type} (c : Prop) [Decidable c] (a : α) :
    NeverFails ParseFailure.crash (if c then fail .reject else pure a : FilterReader α) := by
  split
  · exact neverFails_fail nofun
  · exact neverFails_pure _ a

theorem neverFails_portnum : NeverFails ParseFailure.crash portnum :=
  (neverFails_token _).bind fun n => neverFails_ite (n > 65535) n

theorem neverFails_singleport : NeverFails ParseFailure.crash singleport :=
  neverFails_portnum.bind fun _ => neverFails_pure _ _

theorem neverFails_portnums : NeverFails ParseFailure.crash portnums :=
  neverFails_portnum.bind fun _ =>
    neverFails_ifNext
      (neverFails_singleport.bind fun _ =>
        neverFails_whileNext (fun _ => neverFails_portnum.bind fun _ => neverFails_pure _ _) _)
      (neverFails_pure _ _)

theorem neverFails_port (proto : UInt8) (target : FilterTarget) :
    NeverFails ParseFailure.crash (port proto target) :=
  neverFails_tryToken (fun _ => neverFails_portnums.bind fun _ => neverFails_pure _ _)
    (neverFails_tryToken (fun _ => neverFails_singleport.bind fun _ => neverFails_ite _ _)
      (neverFails_portnum.bind fun _ => (neverFails_expect _).bind fun _ =>
        neverFails_portnum.bind fun _ => neverFails_ite _ _))

theorem neverFails_ipv4mask : NeverFails ParseFailure.crash (ipv4mask net) :=
  neverFails_ifNext ((neverFails_token _).bind fun _ => neverFails_pure _ _)
    (neverFails_ifNext ((neverFails_token _).bind fun _ => neverFails_ite _ _)
      (neverFails_pure _ _))

theorem neverFails_object (proto : UInt8) (target : FilterTarget) :
    NeverFails ParseFailure.crash (object net proto target) :=
  neverFails_tryToken
    (fun _ => (neverFails_ipv4mask.bind fun _ => neverFails_pure _ _).bind fun _ =>
      neverFails_ifNext (neverFails_port _ _) (neverFails_pure _ _))
    ((neverFails_expect _).bind fun _ => neverFails_port _ _)

theorem neverFails_srcdst (rule : FilterRule) :
    NeverFails ParseFailure.crash (srcdst net rule) :=
  NeverFails.bind
    (neverFails_ifNext ((neverFails_object _ _).bind fun _ => neverFails_pure _ _)
      (neverFails_pure _ _))
    fun _ => neverFails_ifNext ((neverFails_object _ _).bind fun _ => neverFails_pure _ _)
      (neverFails_pure _ _)

theorem neverFails_flag : NeverFails ParseFailure.crash flag := by
  refine (neverFails_token _).bind fun s => ?_
  split
  · exact neverFails_fail nofun
  · exact neverFails_pure _ _

theorem neverFails_flags (rule : FilterRule) : NeverFails ParseFailure.crash (flags rule) :=
  neverFails_ifNext
    (neverFails_flag.bind fun _ =>
      neverFails_ifNext (neverFails_flag.bind fun _ => neverFails_pure _ _) (neverFails_pure _ _))
    (neverFails_pure _ _)

theorem neverFails_markedRedir (rule : FilterRule) (dir : MatchMode) :
    NeverFails ParseFailure.crash (markedRedir net rule dir) := by
  cases dir with
  | inward =>
    exact neverFails_ifNext
      ((neverFails_expect _).bind fun _ => (neverFails_token _).bind fun _ =>
        (neverFails_expect _).bind fun _ => neverFails_portnum.bind fun _ => neverFails_pure _ _)
      (neverFails_pure _ _)
  | outward => exact neverFails_pure _ _

theorem neverFails_rate (rule : FilterRule) : NeverFails ParseFailure.crash (rate rule) :=
  neverFails_ifNext ((neverFails_token _).bind fun _ => neverFails_pure _ _) (neverFails_pure _ _)

theorem neverFails_action : NeverFails ParseFailure.crash action :=
  neverFails_tryToken (fun _ => neverFails_pure _ _)
    ((neverFails_expect _).bind fun _ => (neverFails_expect _).bind fun _ =>
      (neverFails_token _).bind fun _ => neverFails_pure _ _)

/-- Only an unknown name crashes. -/
theorem proto_eq_crash {rule : FilterRule} {ls : List Lexeme}
    (h : proto net rule (ls.map Lexeme.token) = .error .crash) :
    ∃ (s : Name) (ls' : List Lexeme), ls = s.lexeme :: ls' ∧ net.protobyname s.word = none := by
  rcases tryToken_eq_error h with ⟨_, _, _, _, _, hnumber⟩ | hstring
  · cases hnumber
  rcases bind_eq_error hstring with hnone | ⟨w, mid, hw, hname⟩
  · exact absurd hnone (neverFails_token _ _)
  obtain ⟨s, ls', rfl, rfl, hs⟩ := reads_string hw
  cases hs
  refine ⟨s, ls', rfl, ?_⟩
  cases hproto : net.protobyname s.word with
  | none => rfl
  | some n =>
    rw [hproto] at hname
    cases hname

/-- **A rule crashes** at an unknown protocol only. -/
theorem rule_eq_crash {ls : List Lexeme}
    (h : rule net (ls.map Lexeme.token) = .error .crash) :
    ∃ (a : ActionText) (dir : MatchMode) (s : Name) (ls' : List Lexeme),
      ls = a.sentence ++ dir.token.spelling :: Token.yyProto.spelling :: s.lexeme :: ls' ∧
        net.protobyname s.word = none := by
  rcases bind_eq_error h with haction | ⟨r₀, mid, haction, h₀⟩
  · exact absurd haction (neverFails_action _)
  obtain ⟨a, ls₀, rfl, rfl, -⟩ := reads_action haction
  rcases bind_eq_error h₀ with hmark | ⟨d, mid, hmark, h₁⟩
  · exact absurd hmark (neverFails_token _ _)
  obtain ⟨dir, ls₁, rfl, rfl, -⟩ := reads_mark hmark
  rcases bind_eq_error h₁ with hmain | ⟨r₁, mid, -, h₂⟩
  · rcases ifNext_map_eq_error (fun _ => eq_spelling (t := .yyProto) trivial) hmain with
      ⟨ls₂, rfl, hparts⟩ | hsrcdst
    · rcases bind_eq_error hparts with hproto | ⟨r₁, mid, -, hrest⟩
      · obtain ⟨s, ls₃, rfl, hs⟩ := proto_eq_crash hproto
        exact ⟨a, dir, s, ls₃, by simp, hs⟩
      · exact absurd hrest ((neverFails_srcdst _).bind neverFails_flags _)
    · exact absurd hsrcdst (neverFails_srcdst _ _)
  · exact absurd h₂ ((neverFails_markedRedir _ _).bind (fun r =>
      (neverFails_rate r).bind fun _ => neverFails_pure _ _) _)

/-- An unknown protocol crashes whatever is behind it. -/
theorem says_rule_crash (a : ActionText) (dir : MatchMode) {s : Name}
    (hs : net.protobyname s.word = none) (ts : List Token) :
    Says (rule net) ((a.sentence ++ dir.token.spelling :: Token.yyProto.spelling ::
      [s.lexeme]).map Lexeme.token ++ ts) (.error .crash) ts := by
  have htokens : (a.sentence ++ dir.token.spelling :: Token.yyProto.spelling ::
      [s.lexeme]).map Lexeme.token ++ ts = a.sentence.map Lexeme.token ++
        dir.token.spelling.token :: .yyProto :: s.lexeme.token :: ts := by
    simp [token_spelling (t := .yyProto) trivial]
  have hproto : Says (proto net a.rule) (s.lexeme.token :: ts) (.error .crash) ts := by
    have hname := says_proto net a.rule (.name s) ts
    rw [ProtoText.meaning, hs] at hname
    exact hname
  rw [htokens]
  exact (says_action a _).bind_ok ((says_mark dir _).bind_ok
    ((says_ifNext (hproto.bind_error ts)).bind_error ts))

end FilterParser

/-- After rules that it accepts, the text goes on with an unknown name behind `proto`. -/
def ComesToUnknownProto (net : NetDb) (text : List Char) : Prop :=
  ∃ (rs : List RuleText) (a : ActionText) (dir : MatchMode) (s : Name) (ls : List Lexeme),
    (∀ r ∈ rs, r.Accepted net) ∧ net.protobyname s.word = none ∧
      lexemes text = rs.flatMap RuleText.sentence ++
        (a.sentence ++ dir.token.spelling :: Token.yyProto.spelling :: s.lexeme :: ls)

/-- **The parser crashes** just on these texts. -/
theorem filterParseRuleset_eq_crash {net : NetDb} {text : List Char} :
    filterParseRuleset net text = .error .crash ↔ ComesToUnknownProto net text := by
  have hmap : filterParseRuleset net text = .error .crash ↔
      TokenReader.all (FilterParser.rule net) .reject (scan text) = .error .crash := by
    rw [filterParseRuleset]
    cases TokenReader.all (FilterParser.rule net) .reject (scan text) with
    | error e =>
      exact ⟨fun h => congrArg _ (Except.error.inj h), fun h => congrArg _ (Except.error.inj h)⟩
    | ok rules =>
      refine iff_of_false (fun h => ?_) fun h => ?_
      · cases h
      · cases h
  rw [hmap, scan_eq_map_token]
  constructor
  · intro h
    obtain ⟨rs, ls, rules, hls, hrules, hrule⟩ :=
      TokenReader.all_map_eq_error FilterParser.reads_rule (by decide) h
    obtain ⟨a, dir, s, ls', rfl, hs⟩ := FilterParser.rule_eq_crash hrule
    exact ⟨rs, a, dir, s, ls', (mapM_meaning_eq_ok.1 hrules).1, hs, hls⟩
  · rintro ⟨rs, a, dir, s, ls, hacc, hs, htext⟩
    have hcrash := @FilterParser.says_rule_crash net a dir s hs (ls.map Lexeme.token)
    have hbehind := behind_action a ((dir.token.spelling :: Token.yyProto.spelling ::
      [s.lexeme]).map Lexeme.token ++ ls.map Lexeme.token)
    rw [← List.append_assoc, ← List.map_append] at hbehind
    have htokens : (lexemes text).map Lexeme.token =
        (rs.flatMap fun r => r.sentence.map Lexeme.token) ++
          ((a.sentence ++ dir.token.spelling :: Token.yyProto.spelling ::
            [s.lexeme]).map Lexeme.token ++ ls.map Lexeme.token) := by
      rw [htext]
      simp [List.map_flatMap]
    generalize (a.sentence ++ dir.token.spelling :: Token.yyProto.spelling ::
      [s.lexeme]).map Lexeme.token ++ ls.map Lexeme.token = ts at hcrash hbehind htokens
    rw [htokens, TokenReader.all_flatMap_append FilterParser.progresses_rule ts
      (fun r _ hr => r.sentence_ne_nil (List.map_eq_nil_iff.1 hr))
      (fun _ r post _ => FilterParser.says_rule net r (behind_sentences post hbehind)),
      mapM_meaning_eq_ok.2 ⟨hacc, rfl⟩]
    cases ts with
    | nil => cases hcrash
    | cons t ts =>
      show Except.map _ (TokenReader.all _ _ (t :: ts)) = _
      rw [TokenReader.all_cons FilterParser.progresses_rule, hcrash]
      rfl

/-! ## The array of ports -/

namespace FilterParser

open TokenReader

/-- `target->ports[target->port_cnt++]`; a store outside the array would crash. -/
def storePort (ports : List UInt16) (n : ℤ) : FilterReader (List UInt16) :=
  if ports.length < SW_FILTER_PORTS_MAX then pure (ports ++ [UInt16.ofInt n]) else fail .crash

/-- `portnums` with every store looked at. -/
def portnumsBounded : FilterReader (List UInt16) := do
  let n ← portnum
  ifNext .comma
    (do
      let m ← portnum
      let ports ← storePort [] m
      let ports ← storePort ports n
      whileNext .comma
        (fun ports => do
          let n ← portnum
          if ports.length < SW_FILTER_PORTS_MAX then storePort ports n else pure ports)
        ports)
    (storePort [] n)

/-- **No store is outside the array.** -/
theorem portnumsBounded_eq : portnumsBounded = portnums := by
  have hnext : ∀ ports n, (if ports.length < SW_FILTER_PORTS_MAX then storePort ports n
      else pure ports) = (pure (if ports.length < SW_FILTER_PORTS_MAX
        then ports ++ [UInt16.ofInt n] else ports) : FilterReader (List UInt16)) := by
    intro ports n
    split
    · rename_i hroom
      rw [storePort, if_pos hroom]
    · rfl
  have hmore : (fun ports => portnum >>= fun n =>
      if ports.length < SW_FILTER_PORTS_MAX then storePort ports n else pure ports) =
        portnumsNext :=
    funext fun ports => congrArg (portnum >>= ·) (funext (hnext ports))
  refine congrArg (portnum >>= ·) (funext fun n => ?_)
  rw [hmore]
  have hset : (portnum >>= fun m => storePort [] m >>= fun ports =>
      storePort ports n >>= whileNext .comma portnumsNext) =
        singleport >>= fun ports => whileNext .comma portnumsNext (ports ++ [UInt16.ofInt n]) := by
    rw [singleport, bind_bind]
    rfl
  rw [hset]
  rfl

end FilterParser

/-! ## Numbers that fit -/

/-- The ports of a condition are stored as they are written. -/
def PortText.ExactIn (tg : FilterTarget) : PortText → Prop
  | .set _ first others =>
    (tg.ports.map UInt16.toNat).Perm ((first :: others).map Numeral.decimal)
  | .compare _ p => tg.ports.map UInt16.toNat = [p.decimal]
  | .range lo hi => tg.portLo.toNat = lo.decimal ∧ tg.portHi.toNat = hi.decimal

/-- The ports fit, and so does their number. -/
structure PortText.Fits (t : PortText) : Prop where
  port : ∀ p ∈ t.numerals, p.decimal ≤ 65535
  room : t.numerals.length ≤ SW_FILTER_PORTS_MAX

theorem PortText.exactIn_iff (tg : FilterTarget) (t : PortText) :
    t.ExactIn (t.store tg) ↔ t.Fits := by
  have hport : ∀ p : Numeral, p.port.toNat = p.decimal ↔ p.decimal ≤ 65535 := by
    intro p
    refine ⟨fun h => ?_, Numeral.toNat_port⟩
    have hlt := p.port.toNat_lt
    omega
  cases t with
  | set op first others =>
    have hperm := (storedPorts_perm first others).map UInt16.toNat
    constructor
    · intro h
      have hlen := (hperm.symm.trans h).length_eq
      refine ⟨fun p hp => ?_, ?_⟩
      · obtain ⟨port, -, hport⟩ := List.mem_map.1 (h.mem_iff.2 (List.mem_map_of_mem hp))
        have hlt := port.toNat_lt
        omega
      · simp only [List.length_map, List.length_take] at hlen
        exact min_eq_right_iff.1 hlen
    · intro h
      have hall : (first :: others).take SW_FILTER_PORTS_MAX = first :: others :=
        List.take_of_length_le h.room
      rw [hall, List.map_map] at hperm
      refine hperm.trans (List.Perm.of_eq (List.map_congr_left fun p hp => ?_))
      exact Numeral.toNat_port (h.port p hp)
  | compare op p =>
    constructor
    · intro h
      exact ⟨by simpa [numerals] using (hport p).1 (List.cons.inj h).1,
        by simp [numerals, SW_FILTER_PORTS_MAX]⟩
    · intro h
      exact congrArg (fun n : ℕ => [n]) ((hport p).2 (h.port p (by simp [numerals])))
  | range lo hi =>
    constructor
    · rintro ⟨hlo, hhi⟩
      exact ⟨by simpa [numerals] using ⟨(hport lo).1 hlo, (hport hi).1 hhi⟩,
        by simp [numerals, SW_FILTER_PORTS_MAX]⟩
    · intro h
      exact ⟨(hport lo).2 (h.port lo (by simp [numerals])),
        (hport hi).2 (h.port hi (by simp [numerals]))⟩

/-- Every number of the rule is stored as it is written. -/
structure RuleText.Exact (r : RuleText) (x : FilterRule) : Prop where
  proto : ∀ n, r.proto = some (.number n) → x.proto.toNat = n.decimal
  port : ∀ side, ∀ o ∈ r.object side, ∀ t ∈ o.port?, t.ExactIn (x.target side)
  slash : ∀ side, ∀ o ∈ r.object side, ∀ n ∈ o.network?, ∀ k, n.mask = some (.slash k) →
    k.decimal ≤ 32 ∧ (x.target side).mask = 0xffffffff <<< UInt32.ofNat (32 - k.decimal)
  redir : ∀ d ∈ r.redir, x.verdict.dnatPort.toNat = d.port.decimal
  shape : ∀ n, r.action = .shape n → x.verdict.shapeRate = n.decimal
  rate : ∀ n ∈ r.rate, x.verdict.shapeRate = n.decimal

/-- The numbers that fit their fields.  A protocol 0 is given up for flags, and of two rates one is
kept. -/
structure RuleText.Fits (r : RuleText) : Prop where
  proto : ∀ n, r.proto = some (.number n) → n.decimal ≤ 255 ∧ (r.flags.isSome → n.decimal ≠ 0)
  port : ∀ side, ∀ o ∈ r.object side, ∀ t ∈ o.port?, t.Fits
  slash : ∀ side, ∀ o ∈ r.object side, ∀ n ∈ o.network?, ∀ k, n.mask = some (.slash k) →
    k.decimal ≤ 32
  redir : ∀ d ∈ r.redir, d.port.decimal ≤ 65535
  shape : ∀ n, r.action = .shape n → n.decimal < 2 ^ 31
  rate : ∀ n ∈ r.rate, n.decimal < 2 ^ 31
  oneRate : ∀ n, r.action = .shape n → ∀ m ∈ r.rate, n.decimal = m.decimal

theorem Numeral.value_eq_iff (n : Numeral) : n.value = n.decimal ↔ n.decimal < 2 ^ 31 := by
  refine ⟨fun h => ?_, n.value_of_lt⟩
  have hlt := n.value_lt
  omega

/-- The protocol of a rule. -/
theorem RuleText.proto_store (net : NetDb) (r : RuleText) : (r.store net).proto =
    if r.flags.isSome ∧ storedProto net r.proto = 0 then 6 else storedProto net r.proto := by
  rcases r with ⟨action, dir, proto, src, dst, flags, redir, rate, -, -⟩
  cases flags with
  | none => rfl
  | some f => simp [store, FlagsText.store]

theorem RuleText.toNat_proto_store_iff (net : NetDb) (r : RuleText) {n : Numeral}
    (hn : r.proto = some (.number n)) :
    (r.store net).proto.toNat = n.decimal ↔
      n.decimal ≤ 255 ∧ (r.flags.isSome → n.decimal ≠ 0) := by
  have hstored : storedProto net r.proto = UInt8.ofInt n.value := by
    rw [hn]
    rfl
  rw [proto_store, hstored]
  have hlt := (if r.flags.isSome ∧ UInt8.ofInt n.value = 0 then 6
    else UInt8.ofInt n.value).toNat_lt
  by_cases hle : n.decimal ≤ 255
  · have hkept : (UInt8.ofInt n.value).toNat = n.decimal := by
      rw [n.value_of_lt (by omega), UInt8.ofInt, UInt8.toNat_ofNat']
      omega
    have hzero : UInt8.ofInt n.value = 0 ↔ n.decimal = 0 := by
      rw [← UInt8.toNat_inj, hkept]
      rfl
    split
    · rename_i h
      have hnone := hzero.1 h.2
      exact iff_of_false (by rw [hnone]; decide) fun hfits => hfits.2 h.1 hnone
    · rename_i h
      exact iff_of_true hkept ⟨hle, fun hflags hnone => h ⟨hflags, hzero.2 hnone⟩⟩
  · exact iff_of_false (by omega) fun h => hle h.1

theorem RuleText.verdict_store (net : NetDb) (r : RuleText) :
    (r.store net).verdict = r.storedVerdict net := by
  rcases r with ⟨action, dir, proto, src, dst, flags, redir, rate, -, -⟩
  cases flags <;> rfl

/-- The rate of a rule: `rate` if it is there, else that of `shape`. -/
theorem RuleText.shapeRate_store (net : NetDb) (r : RuleText) :
    (r.store net).verdict.shapeRate =
      r.rate.elim r.action.rule.verdict.shapeRate Numeral.value := by
  rw [verdict_store, storedVerdict]
  cases r.rate with
  | none => cases r.redir <;> rfl
  | some n => rfl

/-- A rate is stored as it is written if it fits, and no other one is there. -/
theorem RuleText.exact_rates_iff (net : NetDb) (r : RuleText) :
    ((∀ n, r.action = .shape n → (r.store net).verdict.shapeRate = n.decimal) ∧
      ∀ n ∈ r.rate, (r.store net).verdict.shapeRate = n.decimal) ↔
    (∀ n, r.action = .shape n → n.decimal < 2 ^ 31) ∧ (∀ n ∈ r.rate, n.decimal < 2 ^ 31) ∧
      ∀ n, r.action = .shape n → ∀ m ∈ r.rate, n.decimal = m.decimal := by
  have hstored := r.shapeRate_store net
  constructor
  · rintro ⟨hshape, hrate⟩
    refine ⟨fun n hn => ?_, fun n hn => ?_, fun n hn m hm => ?_⟩
    · have hexact := hshape n hn
      rw [hstored] at hexact
      cases hr : r.rate with
      | none =>
        rw [hr, hn] at hexact
        exact n.value_eq_iff.1 hexact
      | some m =>
        rw [hr] at hexact
        have hlt : m.value < 2 ^ 31 := m.value_lt
        have hvalue : m.value = n.decimal := hexact
        omega
    · have hexact := hrate n hn
      rw [hstored, hn] at hexact
      exact n.value_eq_iff.1 hexact
    · have hexact := hrate m hm
      rw [hshape n hn] at hexact
      exact_mod_cast hexact
  · rintro ⟨hshape, hrate, hone⟩
    refine ⟨fun n hn => ?_, fun n hn => ?_⟩
    · rw [hstored]
      cases hr : r.rate with
      | none =>
        rw [hn]
        exact n.value_of_lt (hshape n hn)
      | some m =>
        rw [hone n hn m hr]
        exact m.value_of_lt (hrate m hr)
    · rw [hstored, hn]
      exact n.value_of_lt (hrate n hn)

/-- **The rules that are stored number by number.** -/
theorem RuleText.exact_iff (net : NetDb) (r : RuleText) (num : ℕ) :
    r.Exact { r.store net with num } ↔ r.Fits := by
  have htarget : ∀ side, ∀ o ∈ r.object side,
      { r.store net with num }.target side = o.store net FilterParser.emptyTarget := by
    intro side o ho
    have hstored := r.target_store net side
    rw [ho] at hstored
    cases side <;> exact hstored
  have hport : ∀ side, ∀ o ∈ r.object side, ∀ t ∈ o.port?,
      t.ExactIn ({ r.store net with num }.target side) ↔ t.Fits := by
    intro side o ho t ht
    rw [htarget side o ho, ObjectText.store, ht]
    exact PortText.exactIn_iff _ t
  have hmask : ∀ side, ∀ o ∈ r.object side, ∀ n ∈ o.network?,
      ({ r.store net with num }.target side).mask = storedMask net n.mask := by
    intro side o ho n hn
    rw [htarget side o ho]
    exact (ObjectText.store_of_network hn _).2
  have hredir : ∀ d ∈ r.redir, (r.store net).verdict.dnatPort = d.port.port := by
    intro d hd
    rw [verdict_store, storedVerdict, hd]
    cases r.rate <;> rfl
  constructor
  · intro h
    obtain ⟨hshape, hrate, hone⟩ := (r.exact_rates_iff net).1 ⟨h.shape, h.rate⟩
    refine ⟨fun n hn => (r.toNat_proto_store_iff net hn).1 (h.proto n hn),
      fun side o ho t ht => (hport side o ho t ht).1 (h.port side o ho t ht),
      fun side o ho n hn k hk => (h.slash side o ho n hn k hk).1,
      fun d hd => ?_, hshape, hrate, hone⟩
    have hexact : (r.store net).verdict.dnatPort.toNat = d.port.decimal := h.redir d hd
    have hlt := d.port.port.toNat_lt
    rw [hredir d hd] at hexact
    omega
  · intro h
    obtain ⟨hshape, hrate⟩ := (r.exact_rates_iff net).2 ⟨h.shape, h.rate, h.oneRate⟩
    refine ⟨fun n hn => (r.toNat_proto_store_iff net hn).2 (h.proto n hn),
      fun side o ho t ht => (hport side o ho t ht).2 (h.port side o ho t ht),
      fun side o ho n hn k hk => ?_, fun d hd => ?_, hshape, hrate⟩
    · have hle := h.slash side o ho n hn k hk
      refine ⟨hle, ?_⟩
      rw [hmask side o ho n hn, hk, storedMask_slash net hle]
    · show (r.store net).verdict.dnatPort.toNat = _
      rw [hredir d hd, Numeral.toNat_port (h.redir d hd)]

/-! ## Texts -/

/-- The parser returns, and if it accepts the text, the text is rules, every number of which is
stored as it is written. -/
structure Represents (net : NetDb) (text : List Char) : Prop where
  returns : filterParseRuleset net text ≠ .error .crash
  written : ∀ rsIn rsOut, filterParseRuleset net text = .ok (rsIn, rsOut) → ∃ rs, Written text rs
  exact : ∀ dir r x, Loaded net text dir r x → r.Exact x

/-- A rule of an accepted text has its place in the rules of its direction. -/
theorem exists_loaded {net : NetDb} {text : List Char} {rs : List RuleText}
    (hrs : Written text rs) (hacc : ∀ r ∈ rs, r.Accepted net) {r : RuleText} (hr : r ∈ rs) :
    ∃ num, Loaded net text r.dir r { r.store net with num } := by
  have hmem : r ∈ rs.filter fun r' => r'.dir = r.dir := List.mem_filter.2 ⟨hr, by simp⟩
  obtain ⟨num, hnum⟩ := List.getElem?_of_mem hmem
  refine ⟨num, rs, storedRuleset net .inward rs, storedRuleset net .outward rs, num, hrs,
    filterParseRuleset_eq_ok.2 ⟨rs, hrs, hacc, rfl, rfl⟩, hnum, ?_⟩
  have hstored : (storedRuleset net r.dir rs)[num]? = some { r.store net with num } := by
    rw [storedRuleset, List.getElem?_mapIdx, List.getElem?_map, hnum]
    rfl
  cases hdir : r.dir <;> rw [hdir] at hstored <;> exact hstored

/-- **Which texts are represented or rejected.** -/
theorem represents_iff (net : NetDb) (text : List Char) :
    FilterParser.portnumsBounded = FilterParser.portnums ∧
      (Represents net text ↔ ¬ ComesToUnknownProto net text ∧
        ∀ rs, Written text rs → (∀ r ∈ rs, r.Accepted net) → ∀ r ∈ rs, r.Fits) := by
  refine ⟨FilterParser.portnumsBounded_eq, ?_⟩
  constructor
  · intro h
    refine ⟨fun hcrash => h.returns (filterParseRuleset_eq_crash.2 hcrash), ?_⟩
    intro rs hrs hacc r hr
    obtain ⟨num, hloaded⟩ := exists_loaded hrs hacc hr
    exact (RuleText.exact_iff net r num).1 (h.exact _ _ _ hloaded)
  · rintro ⟨hcrash, hfits⟩
    refine ⟨fun h => hcrash (filterParseRuleset_eq_crash.1 h), ?_, ?_⟩
    · intro rsIn rsOut h
      obtain ⟨rs, hrs, -⟩ := filterParseRuleset_eq_ok.1 h
      exact ⟨rs, hrs⟩
    · intro dir r x hloaded
      obtain ⟨hr, num, rfl⟩ := hloaded.stored
      obtain ⟨rs, rsIn, rsOut, i, hrs, hparse, hnum, -⟩ := hloaded
      have hacc := (stored_of_written hrs hparse).1
      exact (RuleText.exact_iff net r num).2
        (hfits rs hrs hacc r (List.mem_of_mem_filter (List.mem_of_getElem? hnum)))

/-- `pass in proto 256`. -/
def passProto : RuleText :=
  .passIn (some (.number ⟨['2', '5', '6'], rfl⟩)) none none

/-- Of protocol 256 protocol 0 is stored. -/
theorem represents_not_proto : ¬ Represents .small "pass in proto 256".toList := by
  intro h
  have hloaded : Loaded .small "pass in proto 256".toList .inward passProto
      (passProto.store .small) :=
    ⟨[passProto], [passProto.store .small], [], 0, by decide +kernel, by decide +kernel, rfl, rfl⟩
  have hproto := (h.exact _ _ _ hloaded).proto _ rfl
  revert hproto
  decide +kernel

end Sweetspot
