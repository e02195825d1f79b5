import Sweetspot.Filter.Syntax

/-!
# The parser and the grammar

What the parser does with a text is what the text says.

* `filterParseRuleset_of_written`: of rules that are written one after the other it returns what
  they mean, or the failure of the first that has no meaning.
* `exists_written`: a text that it accepts is written so.

Both go production by production.  A part is followed by one that comes later in a rule, or by
another rule: `Behind`.
-/

namespace Sweetspot

/-! ## What may follow -/

/-- The place of a keyword in a rule; 7 begins the next. -/
def Token.rank : Token → ℕ
  | .yyProto => 1
  | .yyFrom => 2
  | .yyTo => 3
  | .yyFlags => 4
  | .yyRedir => 5
  | .yyRate => 6
  | .yyBlock | .yyPass | .yyDnat | .yyShape => 7
  | _ => 0

/-- What comes behind the part with the rank. -/
def Behind (k : ℕ) (ts : List Token) : Prop := ∀ t ∈ ts.head?, k < t.rank

namespace Behind

variable {k : ℕ} {ts : List Token}

theorem nil (k : ℕ) : Behind k [] := by
  intro t ht
  cases ht

theorem mono {j : ℕ} (h : Behind k ts) (hj : j ≤ k) : Behind j ts :=
  fun t ht => hj.trans_lt (h t ht)

theorem head?_ne (h : Behind k ts) {t : Token} (ht : t.rank ≤ k) : ts.head? ≠ some t :=
  fun hhead => absurd (h t hhead) (by omega)

end Behind

theorem map_part {δ : Type} {t : Token} (ht : t.Fixed) (sentence : δ → List Lexeme)
    (o : Option δ) : (part t sentence o).map Lexeme.token =
      o.elim [] fun x => t :: (sentence x).map Lexeme.token := by
  cases o with
  | none => rfl
  | some x => exact congrArg (· :: _) (token_spelling ht)

/-- Behind a part that may be left out comes what is behind it. -/
theorem Behind.part {δ : Type} {k : ℕ} {t : Token} (ht : t.Fixed) (hk : k < t.rank)
    {ts : List Token} (h : Behind t.rank ts) (sentence : δ → List Lexeme) (o : Option δ) :
    Behind k ((part t sentence o).map Lexeme.token ++ ts) := by
  rw [map_part ht]
  cases o with
  | none => exact h.mono hk.le
  | some x =>
    intro t' ht'
    rw [← Option.some.inj ht']
    exact hk

namespace FilterParser

open TokenReader

variable (net : NetDb) {rest : List Token}

/-! ## What the productions say -/

theorem says_number (n : Numeral) (rest : List Token) :
    Says number (n.lexeme.token :: rest) (.ok n.value) rest := by
  rw [n.token_lexeme]
  refine says_token ?_ rest
  rfl

theorem says_string (s : Name) (rest : List Token) :
    Says string (s.lexeme.token :: rest) (.ok s.word) rest := by
  rw [s.token_lexeme]
  refine says_token ?_ rest
  rfl

theorem says_portnum (n : Numeral) (rest : List Token) :
    Says portnum (n.lexeme.token :: rest) n.portnum rest := by
  have h := (says_number n rest).bind fun z => says_ite (z > 65535) .reject z rest
  exact h

theorem says_singleport (n : Numeral) (rest : List Token) :
    Says singleport (n.lexeme.token :: rest) (n.portnum >>= fun z => .ok [UInt16.ofInt z]) rest :=
  (says_portnum n rest).bind fun z => says_pure [UInt16.ofInt z] rest

theorem says_portnumsNext (ports : List UInt16) (n : Numeral) (rest : List Token) :
    Says (portnumsNext ports) (n.lexeme.token :: rest) (portnumsMore ports n) rest := by
  have h := (says_portnum n rest).bind fun z => says_pure
    (if ports.length < SW_FILTER_PORTS_MAX then ports ++ [UInt16.ofInt z] else ports) rest
  exact h

theorem says_portnums (first : Numeral) (others : List Numeral)
    (hrest : rest.head? ≠ some .comma) :
    Says portnums ((portnumsSentence first others).map Lexeme.token ++ rest)
      (portnumsMeaning first others) rest := by
  cases others with
  | nil =>
    have h := (says_portnum first rest).bind fun z => says_ifNext_of_ne
      (p := do
        let ports ← singleport
        whileNext .comma portnumsNext (ports ++ [UInt16.ofInt z]))
      hrest (says_pure [UInt16.ofInt z] rest)
    exact h
  | cons second others =>
    have htokens : (portnumsSentence first (second :: others)).map Lexeme.token ++ rest =
        first.lexeme.token :: Token.comma :: second.lexeme.token ::
          ((others.flatMap fun p => Token.comma :: [p.lexeme.token]) ++ rest) := by
      have hcomma : Token.comma.spelling.token = .comma := rfl
      simp [portnumsSentence, List.map_flatMap, hcomma]
    have hothers : ∀ ports, Says (whileNext .comma portnumsNext ports)
        ((others.flatMap fun p => Token.comma :: [p.lexeme.token]) ++ rest)
        (others.foldlM portnumsMore ports) rest := by
      refine says_whileNext (fun ports => shrinks_portnum.bind fun _ => shrinks_pure _) ?_ hrest
      exact fun ports p _ rest => says_portnumsNext ports p rest
    rw [htokens]
    have h := (says_portnum first (.comma :: _)).bind fun z => says_ifNext
      (q := pure [UInt16.ofInt z])
      ((says_singleport second _).bind fun ports => hothers (ports ++ [UInt16.ofInt z]))
    cases hfirst : first.portnum with
    | error e =>
      rw [hfirst] at h
      rw [portnumsMeaning, hfirst]
      exact h
    | ok z =>
      rw [hfirst] at h
      rw [portnumsMeaning, hfirst]
      cases hsecond : second.portnum with
      | error e =>
        rw [hsecond] at h
        exact h
      | ok z' =>
        rw [hsecond] at h
        exact h

theorem says_port (proto : UInt8) (target : FilterTarget) (t : PortText)
    (hrest : rest.head? ≠ some .comma) :
    Says (port proto target) (t.sentence.map Lexeme.token ++ rest) (t.meaning proto target)
      rest := by
  cases t with
  | set op first others =>
    have hop : compareEqNe op.token.spelling.token = some op.op := by cases op <;> rfl
    exact says_tryToken hop ((says_portnums first others hrest).bind fun ports => says_pure _ rest)
  | compare op p =>
    have hset : compareEqNe op.token.spelling.token = none := by cases op <;> rfl
    have hop : compareOther op.token.spelling.token = some op.op := by cases op <;> rfl
    have h := (says_singleport p rest).bind fun ports =>
      says_ite (proto = 0) .reject { target with ports, op := op.op } rest
    refine says_tryToken_of_none (fun t ht => ?_) (says_tryToken hop ?_)
    · rw [← Option.some.inj ht]
      exact hset
    · rw [PortText.meaning]
      cases hp : p.portnum with
      | error e =>
        rw [hp] at h
        exact h
      | ok z =>
        rw [hp] at h
        exact h
  | range lo hi =>
    have hlo : ∀ t ∈ (lo.lexeme.token :: Token.colon :: hi.lexeme.token :: rest).head?,
        compareEqNe t = none ∧ compareOther t = none := by
      intro t ht
      rw [← Option.some.inj ht, lo.token_lexeme]
      exact ⟨rfl, rfl⟩
    have h := (says_portnum lo (.colon :: hi.lexeme.token :: rest)).bind fun z =>
      (says_expect .colon .reject (hi.lexeme.token :: rest)).bind fun _ =>
        (says_portnum hi rest).bind fun z' => says_ite (proto = 0) .reject
          { target with op := .rg, portLo := UInt16.ofInt z, portHi := UInt16.ofInt z' } rest
    exact says_tryToken_of_none (fun t ht => (hlo t ht).1)
      (says_tryToken_of_none (fun t ht => (hlo t ht).2) h)

theorem says_ipv4mask (m : Option MaskText) (hmask : rest.head? ≠ some .yyMask)
    (hslash : rest.head? ≠ some .slash) :
    Says (ipv4mask net) ((maskSentence m).map Lexeme.token ++ rest) (maskMeaning net m) rest := by
  rcases m with _ | m | n
  · exact says_ifNext_of_ne hmask (says_ifNext_of_ne hslash (says_pure _ rest))
  · exact says_ifNext ((says_string m rest).bind fun s => says_pure (net.inetAddr s) rest)
  · have h := (says_number n rest).bind fun z => says_ite (z < 0 ∨ z > 32) .reject
      ((0xffffffff : UInt32) <<< UInt32.ofInt (32 - z)) rest
    refine says_ifNext_of_ne ?_ (says_ifNext h)
    intro hhead
    cases hhead

theorem says_network (target : FilterTarget) (n : NetworkText) (hmask : rest.head? ≠ some .yyMask)
    (hslash : rest.head? ≠ some .slash) :
    Says (network net target n.host.word) ((maskSentence n.mask).map Lexeme.token ++ rest)
      (n.meaning net target) rest :=
  (says_ipv4mask net n.mask hmask hslash).bind fun _ => says_pure _ rest

theorem says_object (proto : UInt8) (target : FilterTarget) (o : ObjectText)
    (hrest : Behind 0 rest) :
    Says (object net proto target) (o.sentence.map Lexeme.token ++ rest)
      (o.meaning net proto target) rest := by
  have hcomma : rest.head? ≠ some .comma := hrest.head?_ne (by decide)
  have hport : rest.head? ≠ some .yyPort := hrest.head?_ne (by decide)
  cases o with
  | network n p =>
    have htokens : (ObjectText.network n p).sentence.map Lexeme.token ++ rest =
        n.host.lexeme.token :: ((maskSentence n.mask).map Lexeme.token ++
          ((part .yyPort PortText.sentence p).map Lexeme.token ++ rest)) := by
      simp [ObjectText.sentence, NetworkText.sentence]
    have hbehind : ∀ t : Token, t ≠ .yyPort → t.rank ≤ 0 →
        ((part .yyPort PortText.sentence p).map Lexeme.token ++ rest).head? ≠ some t := by
      intro t ht hrank hhead
      cases p with
      | none => exact hrest.head?_ne hrank hhead
      | some p => exact ht (Option.some.inj hhead).symm
    have hnetwork := says_network net target n (hbehind .yyMask (by decide) (by decide))
      (hbehind .slash (by decide) (by decide))
    have hports : ∀ target, Says (ifNext .yyPort (port proto target) (pure target))
        ((part .yyPort PortText.sentence p).map Lexeme.token ++ rest)
        (p.elim (.ok target) (PortText.meaning proto target)) rest := by
      intro target
      rw [map_part (t := .yyPort) trivial]
      exact says_optional target (fun p => says_port proto target p hcomma) hport p
    rw [htokens, n.host.token_lexeme]
    exact says_tryToken rfl (hnetwork.bind hports)
  | port p =>
    refine says_tryToken_of_none ?_
      ((says_expect .yyPort .reject _).bind fun _ => says_port proto target p hcomma)
    intro t ht
    rw [← Option.some.inj ht]
    rfl

theorem says_srcObject (rule : FilterRule) (o : Option ObjectText) (hrest : Behind 2 rest) :
    Says (srcObject net rule) ((part .yyFrom ObjectText.sentence o).map Lexeme.token ++ rest)
      (o.elim (.ok rule) (srcMeaning net rule)) rest := by
  rw [map_part (t := .yyFrom) trivial]
  exact says_optional rule
    (fun o => (says_object net rule.proto rule.src o (hrest.mono (by decide))).bind fun src =>
      says_pure { rule with src } rest)
    (hrest.head?_ne (by decide)) o

theorem says_dstObject (rule : FilterRule) (o : Option ObjectText) (hrest : Behind 3 rest) :
    Says (dstObject net rule) ((part .yyTo ObjectText.sentence o).map Lexeme.token ++ rest)
      (o.elim (.ok rule) (dstMeaning net rule)) rest := by
  rw [map_part (t := .yyTo) trivial]
  exact says_optional rule
    (fun o => (says_object net rule.proto rule.dst o (hrest.mono (by decide))).bind fun dst =>
      says_pure { rule with dst } rest)
    (hrest.head?_ne (by decide)) o

theorem says_flag (s : Name) (rest : List Token) :
    Says flag (s.lexeme.token :: rest) s.flag rest := by
  refine (says_string s rest).bind_ok ?_
  rw [Name.flag]
  cases tcpFlags 0 s.word with
  | none => exact says_fail ParseFailure.reject rest rest
  | some flags => exact says_pure flags rest

theorem says_flags (rule : FilterRule) (f : Option FlagsText) (hrest : Behind 4 rest) :
    Says (flags rule) ((part .yyFlags FlagsText.sentence f).map Lexeme.token ++ rest)
      (f.elim (.ok rule) (FlagsText.meaning rule)) rest := by
  rw [map_part (t := .yyFlags) trivial]
  refine says_optional rule (fun f => ?_) (hrest.head?_ne (by decide)) f
  have htokens : f.sentence.map Lexeme.token ++ rest = f.set.lexeme.token ::
      ((part .slash (fun m : Name => [m.lexeme]) f.mask).map Lexeme.token ++ rest) := rfl
  rw [htokens, map_part (t := .slash) trivial]
  refine (says_flag f.set _).bind fun set => ?_
  exact says_optional _ (fun m => (says_flag m rest).bind fun mask => says_pure _ rest)
    (hrest.head?_ne (by decide)) f.mask

theorem says_proto (rule : FilterRule) (t : ProtoText) (rest : List Token) :
    Says (proto net rule) (t.sentence.map Lexeme.token ++ rest) (t.meaning net rule) rest := by
  cases t with
  | number n =>
    have htokens : (ProtoText.number n).sentence.map Lexeme.token ++ rest =
        .number n.value :: rest := congrArg (· :: rest) n.token_lexeme
    rw [htokens]
    exact says_tryToken rfl (says_pure _ rest)
  | name s =>
    have hname : Says (proto net rule) (s.lexeme.token :: rest)
        ((ProtoText.name s).meaning net rule) rest := by
      refine says_tryToken_of_none (fun t ht => ?_) ((says_string s rest).bind_ok ?_)
      · have htoken : s.lexeme.token = t := Option.some.inj ht
        rw [← htoken, s.token_lexeme]
      · rw [ProtoText.meaning]
        cases net.protobyname s.word with
        | none => exact says_fail ParseFailure.crash rest rest
        | some n => exact says_pure { rule with proto := UInt8.ofInt n } rest
    exact hname

theorem says_markedRedir (rule : FilterRule) (dir : MatchMode) (r : Option RedirText)
    (hdir : r.isSome → dir = .inward) (hrest : Behind 5 rest) :
    Says (markedRedir net rule dir)
      ((part .yyRedir RedirText.sentence r).map Lexeme.token ++ rest)
      (r.elim (.ok rule) (RedirText.meaning net rule)) rest := by
  rw [map_part (t := .yyRedir) trivial]
  cases dir with
  | inward =>
    refine says_optional rule (fun r => ?_) (hrest.head?_ne (by decide)) r
    have h := (says_expect .yyTo .reject (r.host.lexeme.token :: .yyPort :: r.port.lexeme.token ::
      rest)).bind fun _ => (says_string r.host (.yyPort :: r.port.lexeme.token :: rest)).bind
        fun host => (says_expect .yyPort .reject (r.port.lexeme.token :: rest)).bind fun _ =>
          (says_portnum r.port rest).bind fun port => says_pure { rule with
            verdict :=
              { rule.verdict with
                dnatIp := net.inetAddr host, dnatPort := UInt16.ofInt port } } rest
    exact h
  | outward =>
    cases r with
    | none => exact says_pure rule rest
    | some r => cases hdir rfl

theorem says_rate (rule : FilterRule) (n : Option Numeral) (hrest : Behind 6 rest) :
    Says (rate rule) ((part .yyRate (fun n : Numeral => [n.lexeme]) n).map Lexeme.token ++ rest)
      (n.elim (.ok rule) (rateMeaning rule)) rest := by
  rw [map_part (t := .yyRate) trivial]
  refine says_optional rule (fun n => ?_) (hrest.head?_ne (by decide)) n
  have h := (says_number n rest).bind fun z => says_pure { rule with
    verdict :=
      { rule.verdict with
        action := rule.verdict.action ||| SW_FILTER_ACTION_SHAPE
        shapeRate := z } } rest
  exact h

theorem says_action (a : ActionText) (rest : List Token) :
    Says action (a.sentence.map Lexeme.token ++ rest) (.ok a.rule) rest := by
  cases a with
  | block => rfl
  | pass => rfl
  | dnat => rfl
  | shape n =>
    have hshape : ∀ t ∈ ((ActionText.shape n).sentence.map Lexeme.token ++ rest).head?,
        plainAction t = none := by
      intro t ht
      rw [← Option.some.inj ht]
      rfl
    have h := (says_expect .yyShape .reject (.yyRate :: n.lexeme.token :: rest)).bind fun _ =>
      (says_expect .yyRate .reject (n.lexeme.token :: rest)).bind fun _ =>
        (says_number n rest).bind fun z => says_pure (newRule SW_FILTER_ACTION_SHAPE z) rest
    exact says_tryToken_of_none hshape h

theorem says_mark (dir : MatchMode) (rest : List Token) :
    Says mark (dir.token.spelling.token :: rest) (.ok dir) rest := by
  cases dir with
  | inward => rfl
  | outward => rfl

theorem says_srcdst (rule : FilterRule) (src dst : Option ObjectText) (hrest : Behind 3 rest) :
    Says (srcdst net rule)
      ((part .yyFrom ObjectText.sentence src).map Lexeme.token ++
        ((part .yyTo ObjectText.sentence dst).map Lexeme.token ++ rest))
      (src.elim (.ok rule) (srcMeaning net rule) >>= fun rule =>
        dst.elim (.ok rule) (dstMeaning net rule)) rest :=
  (says_srcObject net rule src (hrest.part (t := .yyTo) trivial (by decide) _ dst)).bind fun rule =>
    says_dstObject net rule dst hrest

theorem says_rulemain (rule : FilterRule) (proto : Option ProtoText) (src dst : Option ObjectText)
    (flags : Option FlagsText) (hflags : flags.isSome → proto.isSome) (hrest : Behind 4 rest) :
    Says (rulemain net rule)
      ((part .yyProto ProtoText.sentence proto).map Lexeme.token ++
        ((part .yyFrom ObjectText.sentence src).map Lexeme.token ++
          ((part .yyTo ObjectText.sentence dst).map Lexeme.token ++
            ((part .yyFlags FlagsText.sentence flags).map Lexeme.token ++ rest))))
      (proto.elim (.ok rule) (ProtoText.meaning net rule) >>= fun rule =>
        src.elim (.ok rule) (srcMeaning net rule) >>= fun rule =>
          dst.elim (.ok rule) (dstMeaning net rule) >>= fun rule =>
            flags.elim (.ok rule) (FlagsText.meaning rule)) rest := by
  have hbehind : Behind 3 ((part .yyFlags FlagsText.sentence flags).map Lexeme.token ++ rest) :=
    hrest.part (t := .yyFlags) trivial (by decide) _ flags
  cases proto with
  | none =>
    cases flags with
    | none =>
      have hdst := hbehind.part (t := .yyTo) trivial (by decide : 2 < 3) ObjectText.sentence dst
      have hsrc := hdst.part (t := .yyFrom) trivial (by decide : 1 < 2) ObjectText.sentence src
      have h := says_srcdst net rule src dst hbehind
      show Says _ _ (src.elim (.ok rule) (srcMeaning net rule) >>= fun rule =>
        dst.elim (.ok rule) (dstMeaning net rule) >>= pure) rest
      simp only [bind_pure]
      exact says_ifNext_of_ne (hsrc.head?_ne (by decide)) h
    | some f => cases hflags rfl
  | some t =>
    rw [map_part (t := .yyProto) trivial]
    have h := (says_proto net rule t _).bind fun rule =>
      (says_srcdst net rule src dst hbehind).bind fun rule => says_flags rule flags hrest
    simp only [bind_assoc] at h
    exact says_ifNext h

/-- **The parser says of a rule what it means.** -/
theorem says_rule (r : RuleText) (hrest : Behind 6 rest) :
    Says (rule net) (r.sentence.map Lexeme.token ++ rest) (r.meaning net) rest := by
  have htokens : r.sentence.map Lexeme.token ++ rest =
      r.action.sentence.map Lexeme.token ++ r.dir.token.spelling.token ::
        ((part .yyProto ProtoText.sentence r.proto).map Lexeme.token ++
          ((part .yyFrom ObjectText.sentence r.src).map Lexeme.token ++
            ((part .yyTo ObjectText.sentence r.dst).map Lexeme.token ++
              ((part .yyFlags FlagsText.sentence r.flags).map Lexeme.token ++
                ((part .yyRedir RedirText.sentence r.redir).map Lexeme.token ++
                  ((part .yyRate (fun n : Numeral => [n.lexeme]) r.rate).map Lexeme.token ++
                    rest)))))) := by
    simp [RuleText.sentence]
  have hrate := hrest.part (t := .yyRate) trivial (by decide : 5 < 6)
    (fun n : Numeral => [n.lexeme]) r.rate
  have hredir := hrate.part (t := .yyRedir) trivial (by decide : 4 < 5)
    RedirText.sentence r.redir
  have h := (says_rulemain net r.action.rule r.proto r.src r.dst r.flags r.flags_proto hredir).bind
    fun rule => (says_markedRedir net rule r.dir r.redir r.redir_inward hrate).bind
      fun rule => (says_rate rule r.rate hrest).bind fun rule => says_pure (r.dir, rule) rest
  simp only [bind_assoc] at h
  rw [htokens]
  exact (says_action r.action _).bind_ok ((says_mark r.dir _).bind_ok h)

/-! ## What the productions take -/

variable {net}

theorem reads_number :
    Reads Lexeme.token number (fun n : Numeral => [n.lexeme]) fun n => .ok n.value := by
  refine reads_token fun l z h => ?_
  split at h
  · rename_i htoken
    obtain ⟨n, rfl, hvalue⟩ := exists_numeral htoken
    exact ⟨n, rfl, by rw [← hvalue, Option.some.inj h]⟩
  · cases h

theorem reads_string :
    Reads Lexeme.token string (fun s : Name => [s.lexeme]) fun s => .ok s.word := by
  refine reads_token fun l w h => ?_
  split at h
  · rename_i htoken
    obtain ⟨s, rfl, hword⟩ := exists_name htoken
    exact ⟨s, rfl, by rw [← hword, Option.some.inj h]⟩
  · cases h

theorem reads_portnum :
    Reads Lexeme.token portnum (fun n : Numeral => [n.lexeme]) Numeral.portnum := by
  intro ls z rest h
  obtain ⟨z', mid, hnumber, h⟩ := bind_eq_ok_iff.1 h
  obtain ⟨n, ls', rfl, rfl, hvalue⟩ := reads_number hnumber
  rw [← Except.ok.inj hvalue] at h
  refine ⟨n, ls', rfl, ?_⟩
  rw [Numeral.portnum]
  split at h
  · cases h
  · rename_i hle
    cases h
    exact ⟨rfl, if_neg hle⟩

theorem reads_portnumsNext (ports : List UInt16) :
    Reads Lexeme.token (portnumsNext ports) (fun n : Numeral => [n.lexeme])
      (portnumsMore ports) := by
  intro ls ports' rest h
  obtain ⟨z, mid, hport, h⟩ := bind_eq_ok_iff.1 h
  obtain ⟨n, ls', rfl, rfl, hn⟩ := reads_portnum hport
  cases h
  refine ⟨n, ls', rfl, rfl, ?_⟩
  rw [portnumsMore, hn]
  rfl

theorem reads_portnums : Reads Lexeme.token portnums
    (fun ps : Numeral × List Numeral => portnumsSentence ps.1 ps.2)
    fun ps => portnumsMeaning ps.1 ps.2 := by
  intro ls ports rest h
  obtain ⟨z, mid, hfirst, h⟩ := bind_eq_ok_iff.1 h
  obtain ⟨first, ls', rfl, rfl, hz⟩ := reads_portnum hfirst
  rcases ifNext_map_eq_ok (fun _ => eq_spelling (t := .comma) trivial) h with
    ⟨ls', rfl, hmore⟩ | hone
  · obtain ⟨_, mid, hsecond, hothers⟩ := bind_eq_ok_iff.1 hmore
    obtain ⟨z', mid', hport, h'⟩ := bind_eq_ok_iff.1 hsecond
    obtain ⟨second, ls'', rfl, rfl, hz'⟩ := reads_portnum hport
    cases h'
    obtain ⟨others, ls''', rfl, hrest, hd⟩ :=
      reads_whileNext (fun _ => eq_spelling (t := .comma) trivial) reads_portnumsNext _ hothers
    refine ⟨(first, second :: others), ls''', by simp [portnumsSentence], hrest, ?_⟩
    show portnumsMeaning first (second :: others) = _
    rw [portnumsMeaning, hz, hz']
    exact hd
  · cases hone
    refine ⟨(first, []), ls', rfl, rfl, ?_⟩
    show portnumsMeaning first [] = _
    rw [portnumsMeaning, hz]
    rfl

theorem exists_compareEqNe {l : Lexeme} {op : TargetOp} (h : compareEqNe l.token = some op) :
    ∃ c : CompareEqNe, l = c.token.spelling ∧ op = c.op := by
  cases htoken : l.token <;> rw [htoken] at h <;> cases h
  · exact ⟨.eq, eq_spelling trivial htoken, rfl⟩
  · exact ⟨.ne, eq_spelling trivial htoken, rfl⟩

theorem exists_compareOther {l : Lexeme} {op : TargetOp} (h : compareOther l.token = some op) :
    ∃ c : CompareOther, l = c.token.spelling ∧ op = c.op := by
  cases htoken : l.token <;> rw [htoken] at h <;> cases h
  · exact ⟨.lt, eq_spelling trivial htoken, rfl⟩
  · exact ⟨.le, eq_spelling trivial htoken, rfl⟩
  · exact ⟨.gt, eq_spelling trivial htoken, rfl⟩
  · exact ⟨.ge, eq_spelling trivial htoken, rfl⟩

theorem reads_port (proto : UInt8) (target : FilterTarget) :
    Reads Lexeme.token (port proto target) PortText.sentence (PortText.meaning proto target) := by
  intro ls x rest h
  rcases tryToken_eq_ok h with ⟨_, _, op, hts, hop, h⟩ | h
  · obtain ⟨l, ls, rfl, rfl, rfl⟩ := List.map_eq_cons_iff.1 hts
    obtain ⟨c, rfl, rfl⟩ := exists_compareEqNe hop
    obtain ⟨ports, mid, hports, h⟩ := bind_eq_ok_iff.1 h
    obtain ⟨ps, ls', rfl, rfl, hd⟩ := reads_portnums hports
    cases h
    refine ⟨.set c ps.1 ps.2, ls', rfl, rfl, ?_⟩
    dsimp only at hd
    rw [PortText.meaning, hd]
    rfl
  rcases tryToken_eq_ok h with ⟨_, _, op, hts, hop, h⟩ | h
  · obtain ⟨l, ls, rfl, rfl, rfl⟩ := List.map_eq_cons_iff.1 hts
    obtain ⟨c, rfl, rfl⟩ := exists_compareOther hop
    obtain ⟨ports, mid, hports, h⟩ := bind_eq_ok_iff.1 h
    obtain ⟨z, mid', hport, h'⟩ := bind_eq_ok_iff.1 hports
    obtain ⟨p, ls', rfl, rfl, hp⟩ := reads_portnum hport
    cases h'
    split at h
    · cases h
    · rename_i hproto
      cases h
      refine ⟨.compare c p, ls', rfl, rfl, ?_⟩
      rw [PortText.meaning, hp]
      exact if_neg hproto
  · obtain ⟨z, mid, hlo, h⟩ := bind_eq_ok_iff.1 h
    obtain ⟨lo, ls', rfl, rfl, hz⟩ := reads_portnum hlo
    obtain ⟨_, mid, hcolon, h⟩ := bind_eq_ok_iff.1 h
    obtain ⟨ls'', rfl, rfl⟩ :=
      expect_map_eq_ok (fun _ => eq_spelling (t := .colon) trivial) hcolon
    obtain ⟨z', mid, hhi, h⟩ := bind_eq_ok_iff.1 h
    obtain ⟨hi, ls''', rfl, rfl, hz'⟩ := reads_portnum hhi
    split at h
    · cases h
    · rename_i hproto
      cases h
      refine ⟨.range lo hi, ls''', rfl, rfl, ?_⟩
      rw [PortText.meaning, hz, hz']
      exact if_neg hproto

theorem reads_ipv4mask : Reads Lexeme.token (ipv4mask net) maskSentence (maskMeaning net) := by
  intro ls mask rest h
  rcases ifNext_map_eq_ok (fun _ => eq_spelling (t := .yyMask) trivial) h with
    ⟨ls', rfl, hmask⟩ | h
  · obtain ⟨w, mid, hstring, h'⟩ := bind_eq_ok_iff.1 hmask
    obtain ⟨m, ls'', rfl, rfl, hm⟩ := reads_string hstring
    cases h'
    cases hm
    exact ⟨some (.mask m), ls'', rfl, rfl, rfl⟩
  rcases ifNext_map_eq_ok (fun _ => eq_spelling (t := .slash) trivial) h with
    ⟨ls', rfl, hslash⟩ | hnone
  · obtain ⟨z, mid, hnumber, h'⟩ := bind_eq_ok_iff.1 hslash
    obtain ⟨n, ls'', rfl, rfl, hn⟩ := reads_number hnumber
    cases hn
    split at h'
    · cases h'
    · rename_i hlength
      cases h'
      exact ⟨some (.slash n), ls'', rfl, rfl, if_neg hlength⟩
  · cases hnone
    exact ⟨none, ls, rfl, rfl, rfl⟩

theorem reads_object (proto : UInt8) (target : FilterTarget) :
    Reads Lexeme.token (object net proto target) ObjectText.sentence
      (ObjectText.meaning net proto target) := by
  intro ls x rest h
  rcases tryToken_eq_ok h with ⟨_, _, w, hts, hw, h⟩ | h
  · obtain ⟨l, ls, rfl, rfl, rfl⟩ := List.map_eq_cons_iff.1 hts
    obtain ⟨host, rfl, rfl⟩ : ∃ s : Name, l = s.lexeme ∧ w = s.word := by
      split at hw
      · rename_i htoken
        exact exists_name (htoken.trans (congrArg Token.string (Option.some.inj hw)))
      · cases hw
    obtain ⟨target', mid, hnetwork, h⟩ := bind_eq_ok_iff.1 h
    obtain ⟨mask, mid', hmask, h'⟩ := bind_eq_ok_iff.1 hnetwork
    obtain ⟨m, ls', rfl, rfl, hm⟩ := reads_ipv4mask hmask
    cases h'
    have hd : NetworkText.meaning net target ⟨host, m⟩ =
        .ok { target with ip := net.inetAddr host.word, mask } := by
      rw [NetworkText.meaning, hm]
      rfl
    obtain ⟨p, ls'', rfl, hrest, hp⟩ := reads_optional
      (fun _ => eq_spelling (t := .yyPort) trivial) (reads_port proto _) _ h
    refine ⟨.network ⟨host, m⟩ p, ls'', ?_, hrest, ?_⟩
    · simp [ObjectText.sentence, NetworkText.sentence, part]
    · rw [ObjectText.meaning, hd]
      exact hp
  · obtain ⟨_, mid, hport, h⟩ := bind_eq_ok_iff.1 h
    obtain ⟨ls', rfl, rfl⟩ := expect_map_eq_ok (fun _ => eq_spelling (t := .yyPort) trivial) hport
    obtain ⟨p, ls'', rfl, hrest, hp⟩ := reads_port proto target h
    exact ⟨.port p, ls'', rfl, hrest, hp⟩

theorem reads_srcObject (rule : FilterRule) :
    Reads Lexeme.token (srcObject net rule) (part .yyFrom ObjectText.sentence)
      fun o => o.elim (.ok rule) (srcMeaning net rule) := by
  refine reads_optional (fun _ => eq_spelling (t := .yyFrom) trivial) ?_ rule
  intro ls x rest h
  obtain ⟨src, mid, hobject, h⟩ := bind_eq_ok_iff.1 h
  obtain ⟨o, ls', rfl, rfl, ho⟩ := reads_object _ _ hobject
  cases h
  refine ⟨o, ls', rfl, rfl, ?_⟩
  rw [srcMeaning, ho]
  rfl

theorem reads_dstObject (rule : FilterRule) :
    Reads Lexeme.token (dstObject net rule) (part .yyTo ObjectText.sentence)
      fun o => o.elim (.ok rule) (dstMeaning net rule) := by
  refine reads_optional (fun _ => eq_spelling (t := .yyTo) trivial) ?_ rule
  intro ls x rest h
  obtain ⟨dst, mid, hobject, h⟩ := bind_eq_ok_iff.1 h
  obtain ⟨o, ls', rfl, rfl, ho⟩ := reads_object _ _ hobject
  cases h
  refine ⟨o, ls', rfl, rfl, ?_⟩
  rw [dstMeaning, ho]
  rfl

theorem reads_flag : Reads Lexeme.token flag (fun s : Name => [s.lexeme]) Name.flag := by
  intro ls bits rest h
  obtain ⟨w, mid, hstring, h⟩ := bind_eq_ok_iff.1 h
  obtain ⟨s, ls', rfl, rfl, hs⟩ := reads_string hstring
  cases hs
  refine ⟨s, ls', rfl, ?_⟩
  rw [Name.flag]
  cases hflags : tcpFlags 0 s.word with
  | none =>
    rw [hflags] at h
    cases h
  | some flags =>
    rw [hflags] at h
    cases h
    exact ⟨rfl, rfl⟩

theorem reads_flags (rule : FilterRule) :
    Reads Lexeme.token (flags rule) (part .yyFlags FlagsText.sentence)
      fun f => f.elim (.ok rule) (FlagsText.meaning rule) := by
  refine reads_optional (fun _ => eq_spelling (t := .yyFlags) trivial) ?_ rule
  intro ls x rest h
  obtain ⟨set, mid, hset, h⟩ := bind_eq_ok_iff.1 h
  obtain ⟨s, ls', rfl, rfl, hs⟩ := reads_flag hset
  rcases ifNext_map_eq_ok (fun _ => eq_spelling (t := .slash) trivial) h with
    ⟨ls', rfl, hmask⟩ | hnone
  · obtain ⟨mask, mid, hflag, h'⟩ := bind_eq_ok_iff.1 hmask
    obtain ⟨m, ls'', rfl, rfl, hm⟩ := reads_flag hflag
    cases h'
    refine ⟨⟨s, some m⟩, ls'', rfl, rfl, ?_⟩
    simp only [FlagsText.meaning, Option.elim, hs, hm]
    rfl
  · cases hnone
    refine ⟨⟨s, none⟩, ls', rfl, rfl, ?_⟩
    rw [FlagsText.meaning, hs]
    rfl

theorem reads_proto (rule : FilterRule) :
    Reads Lexeme.token (proto net rule) ProtoText.sentence (ProtoText.meaning net rule) := by
  intro ls x rest h
  rcases tryToken_eq_ok h with ⟨_, _, z, hts, hz, h⟩ | h
  · obtain ⟨l, ls, rfl, rfl, rfl⟩ := List.map_eq_cons_iff.1 hts
    obtain ⟨n, rfl, rfl⟩ : ∃ n : Numeral, l = n.lexeme ∧ z = n.value := by
      split at hz
      · rename_i htoken
        exact exists_numeral (htoken.trans (congrArg Token.number (Option.some.inj hz)))
      · cases hz
    cases h
    exact ⟨.number n, ls, rfl, rfl, rfl⟩
  · obtain ⟨w, mid, hstring, h⟩ := bind_eq_ok_iff.1 h
    obtain ⟨s, ls', rfl, rfl, hs⟩ := reads_string hstring
    cases hs
    refine ⟨.name s, ls', rfl, ?_⟩
    rw [ProtoText.meaning]
    cases hname : net.protobyname s.word with
    | none =>
      rw [hname] at h
      cases h
    | some n =>
      rw [hname] at h
      cases h
      exact ⟨rfl, rfl⟩

theorem reads_redir (rule : FilterRule) :
    Reads Lexeme.token (redir net rule) (part .yyRedir RedirText.sentence)
      fun r => r.elim (.ok rule) (RedirText.meaning net rule) := by
  refine reads_optional (fun _ => eq_spelling (t := .yyRedir) trivial) ?_ rule
  intro ls x rest h
  obtain ⟨_, mid, hto, h⟩ := bind_eq_ok_iff.1 h
  obtain ⟨ls₁, rfl, rfl⟩ := expect_map_eq_ok (fun _ => eq_spelling (t := .yyTo) trivial) hto
  obtain ⟨w, mid, hstring, h⟩ := bind_eq_ok_iff.1 h
  obtain ⟨host, ls₂, rfl, rfl, hw⟩ := reads_string hstring
  obtain ⟨_, mid, hkey, h⟩ := bind_eq_ok_iff.1 h
  obtain ⟨ls₃, rfl, rfl⟩ := expect_map_eq_ok (fun _ => eq_spelling (t := .yyPort) trivial) hkey
  obtain ⟨z, mid, hport, h⟩ := bind_eq_ok_iff.1 h
  obtain ⟨port, ls₄, rfl, rfl, hz⟩ := reads_portnum hport
  cases hw
  cases h
  refine ⟨⟨host, port⟩, ls₄, rfl, rfl, ?_⟩
  rw [RedirText.meaning, hz]
  rfl

theorem reads_rate (rule : FilterRule) :
    Reads Lexeme.token (rate rule) (part .yyRate fun n : Numeral => [n.lexeme])
      fun n => n.elim (.ok rule) (rateMeaning rule) := by
  refine reads_optional (fun _ => eq_spelling (t := .yyRate) trivial) ?_ rule
  intro ls x rest h
  obtain ⟨z, mid, hnumber, h⟩ := bind_eq_ok_iff.1 h
  obtain ⟨n, ls', rfl, rfl, hn⟩ := reads_number hnumber
  cases hn
  cases h
  exact ⟨n, ls', rfl, rfl, rfl⟩

theorem reads_action :
    Reads Lexeme.token action ActionText.sentence fun a => .ok a.rule := by
  intro ls x rest h
  rcases tryToken_eq_ok h with ⟨_, _, a, hts, ha, h⟩ | h
  · obtain ⟨l, ls, rfl, rfl, rfl⟩ := List.map_eq_cons_iff.1 hts
    cases htoken : l.token <;> rw [htoken] at ha <;> cases ha
    · cases h
      exact ⟨.block, ls, congrArg (· :: ls) (eq_spelling trivial htoken), rfl, rfl⟩
    · cases h
      exact ⟨.pass, ls, congrArg (· :: ls) (eq_spelling trivial htoken), rfl, rfl⟩
    · cases h
      exact ⟨.dnat, ls, congrArg (· :: ls) (eq_spelling trivial htoken), rfl, rfl⟩
  · obtain ⟨_, mid, hshape, h⟩ := bind_eq_ok_iff.1 h
    obtain ⟨ls₁, rfl, rfl⟩ := expect_map_eq_ok (fun _ => eq_spelling (t := .yyShape) trivial) hshape
    obtain ⟨_, mid, hrate, h⟩ := bind_eq_ok_iff.1 h
    obtain ⟨ls₂, rfl, rfl⟩ := expect_map_eq_ok (fun _ => eq_spelling (t := .yyRate) trivial) hrate
    obtain ⟨z, mid, hnumber, h⟩ := bind_eq_ok_iff.1 h
    obtain ⟨n, ls₃, rfl, rfl, hn⟩ := reads_number hnumber
    cases hn
    cases h
    exact ⟨.shape n, ls₃, rfl, rfl, rfl⟩

theorem reads_mark :
    Reads Lexeme.token mark (fun dir : MatchMode => [dir.token.spelling]) fun dir => .ok dir := by
  refine reads_token fun l dir h => ?_
  split at h
  · rename_i htoken
    cases h
    exact ⟨.inward, eq_spelling trivial htoken, rfl⟩
  · rename_i htoken
    cases h
    exact ⟨.outward, eq_spelling trivial htoken, rfl⟩
  · cases h

theorem reads_srcdst (rule : FilterRule) :
    Reads Lexeme.token (srcdst net rule)
      (fun o : Option ObjectText × Option ObjectText =>
        part .yyFrom ObjectText.sentence o.1 ++ part .yyTo ObjectText.sentence o.2)
      fun o => o.1.elim (.ok rule) (srcMeaning net rule) >>= fun rule =>
        o.2.elim (.ok rule) (dstMeaning net rule) := by
  intro ls x rest h
  obtain ⟨r, mid, hsrc, h⟩ := bind_eq_ok_iff.1 h
  obtain ⟨src, ls', rfl, rfl, hr⟩ := reads_srcObject rule hsrc
  obtain ⟨dst, ls'', rfl, hrest, hx⟩ := reads_dstObject r h
  refine ⟨(src, dst), ls'', (List.append_assoc _ _ _).symm, hrest, ?_⟩
  dsimp only at hr ⊢
  rw [hr]
  exact hx

/-- The parts of a rule before the redirection. -/
theorem rulemain_eq_ok {rule x : FilterRule} {ls : List Lexeme} {rest : List Token}
    (h : rulemain net rule (ls.map Lexeme.token) = .ok (x, rest)) :
    ∃ (proto : Option ProtoText) (src dst : Option ObjectText) (flags : Option FlagsText)
      (ls' : List Lexeme), (flags.isSome → proto.isSome) ∧ rest = ls'.map Lexeme.token ∧
      ls = part .yyProto ProtoText.sentence proto ++ (part .yyFrom ObjectText.sentence src ++
        (part .yyTo ObjectText.sentence dst ++ (part .yyFlags FlagsText.sentence flags ++ ls'))) ∧
      (proto.elim (.ok rule) (ProtoText.meaning net rule) >>= fun rule =>
        src.elim (.ok rule) (srcMeaning net rule) >>= fun rule =>
          dst.elim (.ok rule) (dstMeaning net rule) >>= fun rule =>
            flags.elim (.ok rule) (FlagsText.meaning rule)) = .ok x := by
  rcases ifNext_map_eq_ok (fun _ => eq_spelling (t := .yyProto) trivial) h with
    ⟨ls', rfl, hproto⟩ | hsrcdst
  · obtain ⟨r₁, mid, hr₁, hrest₁⟩ := bind_eq_ok_iff.1 hproto
    obtain ⟨t, ls₁, rfl, rfl, ht⟩ := reads_proto rule hr₁
    obtain ⟨r₂, mid, hr₂, hrest₂⟩ := bind_eq_ok_iff.1 hrest₁
    obtain ⟨o, ls₂, rfl, rfl, ho⟩ := reads_srcdst r₁ hr₂
    obtain ⟨f, ls₃, rfl, hrest₃, hf⟩ := reads_flags r₂ hrest₂
    refine ⟨some t, o.1, o.2, f, ls₃, fun _ => rfl, hrest₃, by simp [part], ?_⟩
    dsimp only [Option.elim_some] at ho ⊢
    rw [ht]
    show (o.1.elim (.ok r₁) (srcMeaning net r₁) >>= fun rule =>
      o.2.elim (.ok rule) (dstMeaning net rule) >>= fun rule =>
        f.elim (.ok rule) (FlagsText.meaning rule)) = _
    rw [← bind_assoc, ho]
    exact hf
  · obtain ⟨o, ls', rfl, hrest, ho⟩ := reads_srcdst rule hsrcdst
    refine ⟨none, o.1, o.2, none, ls', fun h => h, hrest, by simp [part], ?_⟩
    show (o.1.elim (.ok rule) (srcMeaning net rule) >>= fun rule =>
      o.2.elim (.ok rule) (dstMeaning net rule) >>= pure) = _
    simp only [bind_pure]
    exact ho

theorem markedRedir_eq_ok {rule x : FilterRule} {dir : MatchMode} {ls : List Lexeme}
    {rest : List Token} (h : markedRedir net rule dir (ls.map Lexeme.token) = .ok (x, rest)) :
    ∃ (r : Option RedirText) (ls' : List Lexeme), (r.isSome → dir = .inward) ∧
      ls = part .yyRedir RedirText.sentence r ++ ls' ∧ rest = ls'.map Lexeme.token ∧
      r.elim (.ok rule) (RedirText.meaning net rule) = .ok x := by
  cases dir with
  | inward =>
    obtain ⟨r, ls', hls, hrest, hr⟩ := reads_redir rule h
    exact ⟨r, ls', fun _ => rfl, hls, hrest, hr⟩
  | outward =>
    cases h
    refine ⟨none, ls, fun h => ?_, rfl, rfl, rfl⟩
    cases h

/-- **What the parser takes for a rule is one.** -/
theorem reads_rule : Reads Lexeme.token (rule net) RuleText.sentence (RuleText.meaning net) := by
  intro ls x rest h
  obtain ⟨r₀, mid, haction, h₀⟩ := bind_eq_ok_iff.1 h
  obtain ⟨a, ls₀, rfl, rfl, ha⟩ := reads_action haction
  obtain ⟨d, mid, hmark, h₁⟩ := bind_eq_ok_iff.1 h₀
  obtain ⟨dir, ls₁, rfl, rfl, hd⟩ := reads_mark hmark
  obtain ⟨r₁, mid, hmain, h₂⟩ := bind_eq_ok_iff.1 h₁
  obtain ⟨proto, src, dst, flags, ls₂, hflags, rfl, rfl, hr₁⟩ := rulemain_eq_ok hmain
  obtain ⟨r₂, mid, hmarked, h₃⟩ := bind_eq_ok_iff.1 h₂
  rw [← Except.ok.inj hd] at hmarked h₃
  obtain ⟨redir, ls₃, hredir, rfl, rfl, hr₂⟩ := markedRedir_eq_ok hmarked
  obtain ⟨r₃, mid, hrate, h₄⟩ := bind_eq_ok_iff.1 h₃
  obtain ⟨n, ls₄, rfl, rfl, hr₃⟩ := reads_rate r₂ hrate
  cases h₄
  rw [← Except.ok.inj ha] at hr₁
  refine ⟨⟨a, dir, proto, src, dst, flags, redir, n, hflags, hredir⟩, ls₄,
    by simp [RuleText.sentence], rfl, ?_⟩
  show (proto.elim (.ok a.rule) (ProtoText.meaning net a.rule) >>= fun rule =>
    src.elim (.ok rule) (srcMeaning net rule) >>= fun rule =>
      dst.elim (.ok rule) (dstMeaning net rule) >>= fun rule =>
        flags.elim (.ok rule) (FlagsText.meaning rule) >>= fun rule =>
          redir.elim (.ok rule) (RedirText.meaning net rule) >>= fun rule =>
            n.elim (.ok rule) (rateMeaning rule) >>= fun rule => pure (dir, rule)) = _
  have hmeaning := congrArg (· >>= fun rule =>
    redir.elim (.ok rule) (RedirText.meaning net rule) >>= fun rule =>
      n.elim (.ok rule) (rateMeaning rule) >>= fun rule => pure (dir, rule)) hr₁
  simp only [bind_assoc] at hmeaning
  rw [hmeaning]
  show (redir.elim (.ok r₁) (RedirText.meaning net r₁) >>= fun rule =>
    n.elim (.ok rule) (rateMeaning rule) >>= fun rule => pure (dir, rule)) = _
  rw [hr₂]
  show (n.elim (.ok r₂) (rateMeaning r₂) >>= fun rule => pure (dir, rule)) = _
  dsimp only at hr₃
  rw [hr₃]
  rfl

end FilterParser

/-! ## Texts -/

theorem behind_action (a : ActionText) (ts : List Token) :
    Behind 6 (a.sentence.map Lexeme.token ++ ts) := by
  intro t ht
  cases a <;> cases ht <;> decide

/-- Another rule, or what is behind the rules. -/
theorem behind_sentences (rs : List RuleText) {ts : List Token} (hts : Behind 6 ts) :
    Behind 6 ((rs.flatMap fun r => r.sentence.map Lexeme.token) ++ ts) := by
  cases rs with
  | nil => exact hts
  | cons r rs =>
    rw [List.flatMap_cons, RuleText.sentence, List.map_append, List.append_assoc,
      List.append_assoc]
    exact behind_action r.action _

theorem RuleText.sentence_ne_nil (r : RuleText) : r.sentence ≠ [] := by
  rw [RuleText.sentence]
  exact List.append_ne_nil_of_right_ne_nil _ (List.cons_ne_nil _ _)

/-- **A text of rules means what they mean.** -/
theorem all_of_written (net : NetDb) {text : List Char} {rs : List RuleText}
    (h : Written text rs) :
    TokenReader.all (FilterParser.rule net) .reject (scan text) =
      rs.mapM (RuleText.meaning net) := by
  rw [scan_eq_map_token, h, List.map_flatMap]
  refine TokenReader.all_flatMap FilterParser.progresses_rule ?_ ?_
  · intro r _ hr
    exact r.sentence_ne_nil (List.map_eq_nil_iff.1 hr)
  · intro _ r post _
    have hpost := behind_sentences post (Behind.nil 6)
    rw [List.append_nil] at hpost
    exact FilterParser.says_rule net r hpost

theorem filterParseRuleset_of_written (net : NetDb) {text : List Char} {rs : List RuleText}
    (h : Written text rs) :
    filterParseRuleset net text =
      (rs.mapM (RuleText.meaning net)).map fun rules =>
        (ruleset .inward rules, ruleset .outward rules) := by
  rw [filterParseRuleset, all_of_written net h]

/-- **An accepted text is one of rules.** -/
theorem exists_written {net : NetDb} {text : List Char} {rules : List (MatchMode × FilterRule)}
    (h : TokenReader.all (FilterParser.rule net) .reject (scan text) = .ok rules) :
    ∃ rs, Written text rs ∧ rs.mapM (RuleText.meaning net) = .ok rules := by
  rw [scan_eq_map_token] at h
  exact TokenReader.all_map_eq_ok FilterParser.reads_rule h

end Sweetspot
