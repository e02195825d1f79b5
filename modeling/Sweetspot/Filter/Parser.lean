import Sweetspot.Filter.Ruleset
import Sweetspot.Filter.Scanner
import Sweetspot.Lib.TokenReader
import Sweetspot.Tuple.Chain

/-!
# The parser of filter files

`yyparse` builds a rule while it reads it: an action, a direction, what the packet has to be like, a
destination to redirect to and a rate.  One token ahead decides everything.

* `filterParseRuleset`: the rules of a text for packets from a user and for packets to one.
* One definition for every production of the grammar.  Of two ports and more the second is stored
  first: the first one waits on the stack until it is known to be the first of several.
* `actionParsed_of_filterParseRuleset`: the actions that a rule can have.

The stack of the parser is taken to be large enough.
-/

namespace Sweetspot

def SW_FILTER_PORTS_MAX : ℕ := 8

def SW_FILTER_ACTION_PASS : ℕ := 1
def SW_FILTER_ACTION_BLOCK : ℕ := 2
def SW_FILTER_ACTION_DNAT : ℕ := 4
def SW_FILTER_ACTION_SHAPE : ℕ := 8

/-- `getprotobyname` and `inet_addr` in host order. -/
structure NetDb where
  protobyname : List Char → Option ℤ
  inetAddr : List Char → UInt32

/-- How a parse fails: it returns `-1`, or it dereferences the `NULL` of `getprotobyname`. -/
inductive ParseFailure
  | reject | crash
  deriving DecidableEq, Repr

/-- A parser of a part of a filter text. -/
abbrev FilterReader := TokenReader ParseFailure Token

namespace FilterParser

open TokenReader

variable (net : NetDb)

/-! ## Terminals -/

def number : FilterReader ℤ :=
  token (fun | .number n => some n | _ => none) .reject

def string : FilterReader (List Char) :=
  token (fun | .string s => some s | _ => none) .reject

/-! ## Ports -/

/-- `portnum`; a negative number passes. -/
def portnum : FilterReader ℤ := do
  let n ← number
  if n > 65535 then fail .reject else pure n

/-- `singleport`, with the ports stored. -/
def singleport : FilterReader (List UInt16) := do
  let n ← portnum
  pure [UInt16.ofInt n]

/-- One port more, if there is room. -/
def portnumsNext (ports : List UInt16) : FilterReader (List UInt16) := do
  let n ← portnum
  pure (if ports.length < SW_FILTER_PORTS_MAX then ports ++ [UInt16.ofInt n] else ports)

def portnums : FilterReader (List UInt16) := do
  let n ← portnum
  ifNext .comma
    (do
      let ports ← singleport
      whileNext .comma portnumsNext (ports ++ [UInt16.ofInt n]))
    (pure [UInt16.ofInt n])

def compareEqNe : Token → Option TargetOp
  | .yyEq => some .eq
  | .yyNe => some .ne
  | _ => none

def compareOther : Token → Option TargetOp
  | .yyLt => some .lt
  | .yyLe => some .le
  | .yyGt => some .gt
  | .yyGe => some .ge
  | _ => none

/-- `port` behind the keyword: `portcomp` or `portrange`.  A comparison with a set of ports may
stand in a rule without a protocol. -/
def port (proto : UInt8) (target : FilterTarget) : FilterReader FilterTarget :=
  tryToken compareEqNe
    (fun op => do
      let ports ← portnums
      pure { target with ports, op })
    (tryToken compareOther
      (fun op => do
        let ports ← singleport
        if proto = 0 then fail .reject else pure { target with ports, op })
      (do
        let lo ← portnum
        expect .colon .reject
        let hi ← portnum
        if proto = 0 then fail .reject
        else
          pure { target with op := .rg, portLo := UInt16.ofInt lo, portHi := UInt16.ofInt hi }))

/-! ## Networks -/

/-- `ipv4mask`, or all ones without one. -/
def ipv4mask : FilterReader UInt32 :=
  ifNext .yyMask
    (do
      let s ← string
      pure (net.inetAddr s))
    (ifNext .slash
      (do
        let n ← number
        if n < 0 ∨ n > 32 then fail .reject else pure (0xffffffff <<< UInt32.ofInt (32 - n)))
      (pure 0xffffffff))

def network (target : FilterTarget) (host : List Char) : FilterReader FilterTarget := do
  let mask ← ipv4mask net
  pure { target with ip := net.inetAddr host, mask }

def object (proto : UInt8) (target : FilterTarget) : FilterReader FilterTarget :=
  tryToken (fun | .string s => some s | _ => none)
    (fun host => do
      let target ← network net target host
      ifNext .yyPort (port proto target) (pure target))
    (do
      expect .yyPort .reject
      port proto target)

/-! ## The parts of a rule -/

/-- `from`, if it is there. -/
def srcObject (rule : FilterRule) : FilterReader FilterRule :=
  ifNext .yyFrom
    (do
      let src ← object net rule.proto rule.src
      pure { rule with src })
    (pure rule)

/-- `to`, if it is there. -/
def dstObject (rule : FilterRule) : FilterReader FilterRule :=
  ifNext .yyTo
    (do
      let dst ← object net rule.proto rule.dst
      pure { rule with dst })
    (pure rule)

def srcdst (rule : FilterRule) : FilterReader FilterRule := do
  let rule ← srcObject net rule
  dstObject net rule

/-- The bit of a letter. -/
def tcpFlag : Char → Option Int8
  | 'F' => some 0x01
  | 'S' => some 0x02
  | 'R' => some 0x04
  | 'P' => some 0x08
  | 'A' => some 0x10
  | 'U' => some 0x20
  | _ => none

/-- The loop of `flag`. -/
def tcpFlags : Int8 → List Char → Option Int8
  | flags, [] => some flags
  | flags, c :: s => (tcpFlag c).bind fun bit => tcpFlags (flags ||| bit) s

def flag : FilterReader Int8 := do
  let s ← string
  match tcpFlags 0 s with
  | none => fail .reject
  | some flags => pure flags

/-- `flags`, if they are there: a rule for no protocol becomes one for TCP. -/
def flags (rule : FilterRule) : FilterReader FilterRule :=
  ifNext .yyFlags
    (do
      let set ← flag
      let proto : UInt8 := if rule.proto = 0 then 6 else rule.proto
      let rule := { rule with proto, flags := { rule.flags with set } }
      ifNext .slash
        (do
          let mask ← flag
          pure { rule with flags := { rule.flags with mask } })
        (pure rule))
    (pure rule)

/-- `proto` behind the keyword. -/
def proto (rule : FilterRule) : FilterReader FilterRule :=
  tryToken (fun | .number n => some n | _ => none)
    (fun n => pure { rule with proto := UInt8.ofInt n })
    (do
      let s ← string
      match net.protobyname s with
      | none => fail .crash
      | some n => pure { rule with proto := UInt8.ofInt n })

/-- `rulemain`, if it is there; flags are only read behind a protocol. -/
def rulemain (rule : FilterRule) : FilterReader FilterRule :=
  ifNext .yyProto
    (do
      let rule ← proto net rule
      let rule ← srcdst net rule
      flags rule)
    (srcdst net rule)

/-- `redir`, if it is there. -/
def redir (rule : FilterRule) : FilterReader FilterRule :=
  ifNext .yyRedir
    (do
      expect .yyTo .reject
      let host ← string
      expect .yyPort .reject
      let port ← portnum
      pure { rule with
        verdict :=
          { rule.verdict with dnatIp := net.inetAddr host, dnatPort := UInt16.ofInt port } })
    (pure rule)

/-- `rate`, if it is there. -/
def rate (rule : FilterRule) : FilterReader FilterRule :=
  ifNext .yyRate
    (do
      let n ← number
      pure { rule with
        verdict :=
          { rule.verdict with
            action := rule.verdict.action ||| SW_FILTER_ACTION_SHAPE
            shapeRate := n } })
    (pure rule)

def emptyTarget : FilterTarget := ⟨0, 0, [], 0, 0, .none⟩

/-- A rule as `memset` leaves it, with the action given to it. -/
def newRule (action : ℕ) (rate : ℤ) : FilterRule :=
  ⟨emptyTarget, emptyTarget, ⟨0, 0⟩, 0, ⟨action, 0, 0, rate⟩, 0⟩

def plainAction : Token → Option ℕ
  | .yyBlock => some SW_FILTER_ACTION_BLOCK
  | .yyPass => some SW_FILTER_ACTION_PASS
  | .yyDnat => some SW_FILTER_ACTION_DNAT
  | _ => none

def action : FilterReader FilterRule :=
  tryToken plainAction (fun action => pure (newRule action 0))
    (do
      expect .yyShape .reject
      expect .yyRate .reject
      let n ← number
      pure (newRule SW_FILTER_ACTION_SHAPE n))

/-- `markin` and `markout`. -/
def mark : FilterReader MatchMode :=
  token (fun | .yyIn => some .inward | .yyOut => some .outward | _ => none) .reject

/-- Only a rule for packets from a user may redirect. -/
def markedRedir (rule : FilterRule) : MatchMode → FilterReader FilterRule
  | .inward => redir net rule
  | .outward => pure rule

/-- `inrule` and `outrule`. -/
def rule : FilterReader (MatchMode × FilterRule) := do
  let rule ← action
  let dir ← mark
  let rule ← rulemain net rule
  let rule ← markedRedir net rule dir
  let rule ← rate rule
  pure (dir, rule)

/-! ## What the productions keep -/

section

variable {net : NetDb}

theorem shrinks_number : Shrinks number := (progresses_token _ _).shrinks

theorem shrinks_string : Shrinks string := (progresses_token _ _).shrinks

theorem shrinks_portnum : Shrinks portnum := by
  refine shrinks_number.bind fun n => ?_
  split
  · exact shrinks_fail _
  · exact shrinks_pure _

theorem shrinks_singleport : Shrinks singleport := shrinks_portnum.bind fun _ => shrinks_pure _

theorem shrinks_portnums : Shrinks portnums :=
  shrinks_portnum.bind fun _ =>
    shrinks_ifNext
      (shrinks_singleport.bind fun _ =>
        shrinks_whileNext (fun _ => shrinks_portnum.bind fun _ => shrinks_pure _) _)
      (shrinks_pure _)

theorem shrinks_port (proto : UInt8) (target : FilterTarget) : Shrinks (port proto target) := by
  refine shrinks_tryToken (fun op => shrinks_portnums.bind fun _ => shrinks_pure _)
    (shrinks_tryToken (fun op => shrinks_singleport.bind fun _ => ?_) ?_)
  · split
    · exact shrinks_fail _
    · exact shrinks_pure _
  · refine shrinks_portnum.bind fun _ =>
      (progresses_expect _ _).shrinks.bind fun _ => shrinks_portnum.bind fun _ => ?_
    split
    · exact shrinks_fail _
    · exact shrinks_pure _

theorem shrinks_ipv4mask : Shrinks (ipv4mask net) := by
  refine shrinks_ifNext (shrinks_string.bind fun _ => shrinks_pure _)
    (shrinks_ifNext (shrinks_number.bind fun _ => ?_) (shrinks_pure _))
  split
  · exact shrinks_fail _
  · exact shrinks_pure _

theorem shrinks_object (proto : UInt8) (target : FilterTarget) :
    Shrinks (object net proto target) :=
  shrinks_tryToken
    (fun _ => (shrinks_ipv4mask.bind fun _ => shrinks_pure _).bind fun _ =>
      shrinks_ifNext (shrinks_port _ _) (shrinks_pure _))
    ((progresses_expect _ _).shrinks.bind fun _ => shrinks_port _ _)

theorem shrinks_srcdst (rule : FilterRule) : Shrinks (srcdst net rule) :=
  (shrinks_ifNext ((shrinks_object _ _).bind fun _ => shrinks_pure _) (shrinks_pure _)).bind
    fun _ => shrinks_ifNext ((shrinks_object _ _).bind fun _ => shrinks_pure _) (shrinks_pure _)

theorem shrinks_flag : Shrinks flag := by
  refine shrinks_string.bind fun s => ?_
  split
  · exact shrinks_fail _
  · exact shrinks_pure _

theorem shrinks_flags (rule : FilterRule) : Shrinks (flags rule) :=
  shrinks_ifNext
    (shrinks_flag.bind fun _ =>
      shrinks_ifNext (shrinks_flag.bind fun _ => shrinks_pure _) (shrinks_pure _))
    (shrinks_pure _)

theorem shrinks_proto (rule : FilterRule) : Shrinks (proto net rule) := by
  refine shrinks_tryToken (fun _ => shrinks_pure _) (shrinks_string.bind fun s => ?_)
  split
  · exact shrinks_fail _
  · exact shrinks_pure _

theorem shrinks_rulemain (rule : FilterRule) : Shrinks (rulemain net rule) :=
  shrinks_ifNext
    ((shrinks_proto rule).bind fun _ => (shrinks_srcdst _).bind fun _ => shrinks_flags _)
    (shrinks_srcdst rule)

theorem shrinks_redir (rule : FilterRule) : Shrinks (redir net rule) :=
  shrinks_ifNext
    ((progresses_expect _ _).shrinks.bind fun _ => shrinks_string.bind fun _ =>
      (progresses_expect _ _).shrinks.bind fun _ => shrinks_portnum.bind fun _ => shrinks_pure _)
    (shrinks_pure _)

theorem shrinks_rate (rule : FilterRule) : Shrinks (rate rule) :=
  shrinks_ifNext (shrinks_number.bind fun _ => shrinks_pure _) (shrinks_pure _)

theorem progresses_action : Progresses action :=
  progresses_tryToken (fun _ => shrinks_pure _)
    ((progresses_expect _ _).bind fun _ =>
      (progresses_expect _ _).shrinks.bind fun _ => shrinks_number.bind fun _ => shrinks_pure _)

/-- **A rule takes at least one token.** -/
theorem progresses_rule : Progresses (rule net) := by
  refine progresses_action.bind fun r => ?_
  refine (progresses_token _ _).shrinks.bind fun dir => ?_
  refine (shrinks_rulemain r).bind fun r => ?_
  refine Shrinks.bind ?_ fun r => (shrinks_rate r).bind fun _ => shrinks_pure _
  cases dir with
  | inward => exact shrinks_redir r
  | outward => exact shrinks_pure r

end

/-! ## Actions -/

/-- The actions that a rule of a filter text can have. -/
def ActionParsed (action : ℕ) : Prop :=
  action = SW_FILTER_ACTION_PASS ∨ action = SW_FILTER_ACTION_BLOCK ∨
    action = SW_FILTER_ACTION_DNAT ∨ action = SW_FILTER_ACTION_SHAPE ∨
    action = SW_FILTER_ACTION_PASS ||| SW_FILTER_ACTION_SHAPE ∨
    action = SW_FILTER_ACTION_BLOCK ||| SW_FILTER_ACTION_SHAPE ∨
    action = SW_FILTER_ACTION_DNAT ||| SW_FILTER_ACTION_SHAPE

/-- Nothing but its own production and `rate` changes the action of a rule. -/
def KeepsAction (rule : FilterRule) (p : FilterReader FilterRule) : Prop :=
  Yields p fun r => r.verdict.action = rule.verdict.action

section

variable {net : NetDb}

theorem keepsAction_srcdst (r : FilterRule) : KeepsAction r (srcdst net r) :=
  Yields.bind (P := fun r' => r'.verdict.action = r.verdict.action)
    (yields_ifNext (yields_bind fun _ => yields_pure rfl) (yields_pure rfl))
    fun _ h => yields_ifNext (yields_bind fun _ => yields_pure h) (yields_pure h)

theorem keepsAction_flags (r : FilterRule) : KeepsAction r (flags r) :=
  yields_ifNext
    (yields_bind fun _ => yields_ifNext (yields_bind fun _ => yields_pure rfl) (yields_pure rfl))
    (yields_pure rfl)

theorem keepsAction_proto (r : FilterRule) : KeepsAction r (proto net r) := by
  refine yields_tryToken (fun _ => yields_pure rfl) (yields_bind fun s => ?_)
  split
  · exact yields_fail _
  · exact yields_pure rfl

theorem keepsAction_rulemain (r : FilterRule) : KeepsAction r (rulemain net r) := by
  refine yields_ifNext ((keepsAction_proto r).bind fun r₁ h₁ => ?_) (keepsAction_srcdst r)
  refine (keepsAction_srcdst r₁).bind fun r₂ h₂ => ?_
  intro ts r₃ rest h₃
  exact (keepsAction_flags r₂ h₃).trans (h₂.trans h₁)

theorem keepsAction_markedRedir (r : FilterRule) (dir : MatchMode) :
    KeepsAction r (markedRedir net r dir) := by
  cases dir with
  | inward =>
    exact yields_ifNext
      (yields_bind fun _ => yields_bind fun _ => yields_bind fun _ => yields_bind fun _ =>
        yields_pure rfl)
      (yields_pure rfl)
  | outward => exact yields_pure rfl

theorem yields_action : Yields action fun r =>
    r.verdict.action = SW_FILTER_ACTION_PASS ∨ r.verdict.action = SW_FILTER_ACTION_BLOCK ∨
      r.verdict.action = SW_FILTER_ACTION_DNAT ∨ r.verdict.action = SW_FILTER_ACTION_SHAPE := by
  refine yields_tryToken_of (fun t a ha => yields_pure ?_) ?_
  · cases t <;> cases ha
    · exact Or.inr (Or.inl rfl)
    · exact Or.inl rfl
    · exact Or.inr (Or.inr (Or.inl rfl))
  · exact yields_bind fun _ => yields_bind fun _ => yields_bind fun _ =>
      yields_pure (Or.inr (Or.inr (Or.inr rfl)))

/-- **The actions of a filter text**: one of four, with or without a rate. -/
theorem yields_rule : Yields (rule net) fun r => ActionParsed r.2.verdict.action := by
  refine yields_action.bind fun r₀ h₀ => yields_bind fun dir => ?_
  refine (keepsAction_rulemain r₀).bind fun r₁ h₁ => ?_
  refine (keepsAction_markedRedir r₁ dir).bind fun r₂ h₂ => ?_
  have haction : r₂.verdict.action = r₀.verdict.action := h₂.trans h₁
  refine Yields.bind (P := fun r => ActionParsed r.verdict.action) ?_ fun r₃ h₃ => yields_pure h₃
  refine yields_ifNext (yields_bind fun n => yields_pure ?_) (yields_pure ?_)
  · rw [← haction] at h₀
    rcases h₀ with h | h | h | h <;> simp [ActionParsed, h]
  · rw [← haction] at h₀
    rcases h₀ with h | h | h | h <;> simp [ActionParsed, h]

end

end FilterParser

/-- The rules of one direction, numbered from 0 on. -/
def ruleset (dir : MatchMode) (rules : List (MatchMode × FilterRule)) : Ruleset :=
  (rules.filterMap fun (d, rule) => if d = dir then some rule else none).mapIdx
    fun num rule => { rule with num }

/-- `sw_filter_parse_ruleset`: the inbound and the outbound rules of a text. -/
def filterParseRuleset (net : NetDb) (text : List Char) : Except ParseFailure (Ruleset × Ruleset) :=
  (TokenReader.all (FilterParser.rule net) .reject (scan text)).map fun rules =>
    (ruleset .inward rules, ruleset .outward rules)

/-- The rules of a direction are among those of the text, but for their numbers. -/
theorem exists_of_mem_ruleset {dir : MatchMode} {rules : List (MatchMode × FilterRule)}
    {r : FilterRule} (h : r ∈ ruleset dir rules) :
    ∃ rule num, (dir, rule) ∈ rules ∧ r = { rule with num } := by
  obtain ⟨num, hnum, hr⟩ := List.mem_mapIdx.1 h
  obtain ⟨⟨d, rule⟩, hrule, hsome⟩ := List.mem_filterMap.1 (List.getElem_mem hnum)
  dsimp only at hsome
  split_ifs at hsome with hd
  rw [← Option.some.inj hsome] at hr
  exact ⟨rule, num, hd ▸ hrule, hr.symm⟩

/-- **Every rule of a filter text has one of seven actions.** -/
theorem actionParsed_of_filterParseRuleset {net : NetDb} {text : List Char} {rsIn rsOut : Ruleset}
    (h : filterParseRuleset net text = .ok (rsIn, rsOut)) :
    ∀ r ∈ rsIn ++ rsOut, FilterParser.ActionParsed r.verdict.action := by
  unfold filterParseRuleset at h
  cases hall : TokenReader.all (FilterParser.rule net) .reject (scan text) with
  | error e => rw [hall] at h; cases h
  | ok rules =>
    rw [hall] at h
    cases h
    have hrules := TokenReader.forall_mem_all FilterParser.yields_rule hall
    intro r hr
    rcases List.mem_append.1 hr with hin | hout
    · obtain ⟨rule, num, hmem, rfl⟩ := exists_of_mem_ruleset hin
      exact hrules _ hmem
    · obtain ⟨rule, num, hmem, rfl⟩ := exists_of_mem_ruleset hout
      exact hrules _ hmem

end Sweetspot
