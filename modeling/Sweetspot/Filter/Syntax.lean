import Sweetspot.Filter.Lexemes
import Sweetspot.Filter.Parser

/-!
# What a filter text says

The productions of the grammar as trees of the words that are written, before any number is read.

* `RuleText` and its parts: one structure for every production.  Flags are written behind a protocol
  only, and only a rule for packets from a user redirects.
* `RuleText.sentence`: the words and marks of a rule, in order.
* `RuleText.meaning`: the rule they stand for, or the failure of the first part that has none.
-/

namespace Sweetspot

/-- A keyword and what is written behind it, or neither. -/
def part {δ : Type} (keyword : Token) (sentence : δ → List Lexeme) (o : Option δ) : List Lexeme :=
  o.elim [] fun x => keyword.spelling :: sentence x

/-! ## Ports -/

/-- `compare_eq_ne`. -/
inductive CompareEqNe
  | eq | ne
  deriving DecidableEq, Repr

def CompareEqNe.token : CompareEqNe → Token
  | .eq => .yyEq
  | .ne => .yyNe

def CompareEqNe.op : CompareEqNe → TargetOp
  | .eq => .eq
  | .ne => .ne

/-- `compare_other`. -/
inductive CompareOther
  | lt | le | gt | ge
  deriving DecidableEq, Repr

def CompareOther.token : CompareOther → Token
  | .lt => .yyLt
  | .le => .yyLe
  | .gt => .yyGt
  | .ge => .yyGe

def CompareOther.op : CompareOther → TargetOp
  | .lt => .lt
  | .le => .le
  | .gt => .gt
  | .ge => .ge

/-- `portcomp` with a set of ports or with one, and `portrange`. -/
inductive PortText
  | set (op : CompareEqNe) (first : Numeral) (others : List Numeral)
  | compare (op : CompareOther) (p : Numeral)
  | range (lo hi : Numeral)
  deriving DecidableEq, Repr

def portnumsSentence (first : Numeral) (others : List Numeral) : List Lexeme :=
  first.lexeme :: others.flatMap fun p => [Token.comma.spelling, p.lexeme]

def PortText.sentence : PortText → List Lexeme
  | .set op first others => op.token.spelling :: portnumsSentence first others
  | .compare op p => [op.token.spelling, p.lexeme]
  | .range lo hi => [lo.lexeme, Token.colon.spelling, hi.lexeme]

/-- The number of a port. -/
def Numeral.portnum (n : Numeral) : Except ParseFailure ℤ :=
  if n.value > 65535 then .error .reject else .ok n.value

/-- One port more, if there is room. -/
def portnumsMore (ports : List UInt16) (p : Numeral) : Except ParseFailure (List UInt16) := do
  let n ← p.portnum
  pure (if ports.length < SW_FILTER_PORTS_MAX then ports ++ [UInt16.ofInt n] else ports)

/-- The ports that a set stores. -/
def portnumsMeaning (first : Numeral) : List Numeral → Except ParseFailure (List UInt16)
  | [] => do
    let n ← first.portnum
    pure [UInt16.ofInt n]
  | second :: others => do
    let n ← first.portnum
    let m ← second.portnum
    others.foldlM portnumsMore [UInt16.ofInt m, UInt16.ofInt n]

/-- The target with the ports of a text, in a rule for `proto`. -/
def PortText.meaning (proto : UInt8) (target : FilterTarget) :
    PortText → Except ParseFailure FilterTarget
  | .set op first others => do
    let ports ← portnumsMeaning first others
    pure { target with ports, op := op.op }
  | .compare op p => do
    let n ← p.portnum
    if proto = 0 then .error .reject
    else pure { target with ports := [UInt16.ofInt n], op := op.op }
  | .range lo hi => do
    let lo ← lo.portnum
    let hi ← hi.portnum
    if proto = 0 then .error .reject
    else pure { target with op := .rg, portLo := UInt16.ofInt lo, portHi := UInt16.ofInt hi }

/-! ## Networks -/

/-- `ipv4mask`. -/
inductive MaskText
  | mask (m : Name)
  | slash (n : Numeral)
  deriving DecidableEq, Repr

def maskSentence : Option MaskText → List Lexeme
  | none => []
  | some (.mask m) => [Token.yyMask.spelling, m.lexeme]
  | some (.slash n) => [Token.slash.spelling, n.lexeme]

def maskMeaning (net : NetDb) : Option MaskText → Except ParseFailure UInt32
  | none => .ok 0xffffffff
  | some (.mask m) => .ok (net.inetAddr m.word)
  | some (.slash n) =>
    if n.value < 0 ∨ n.value > 32 then .error .reject
    else .ok (0xffffffff <<< UInt32.ofInt (32 - n.value))

/-- `network`. -/
structure NetworkText where
  host : Name
  mask : Option MaskText
  deriving DecidableEq, Repr

def NetworkText.sentence (n : NetworkText) : List Lexeme := n.host.lexeme :: maskSentence n.mask

def NetworkText.meaning (net : NetDb) (target : FilterTarget) (n : NetworkText) :
    Except ParseFailure FilterTarget := do
  let mask ← maskMeaning net n.mask
  pure { target with ip := net.inetAddr n.host.word, mask }

/-- `object`. -/
inductive ObjectText
  | network (n : NetworkText) (port : Option PortText)
  | port (p : PortText)
  deriving DecidableEq, Repr

namespace ObjectText

def network? : ObjectText → Option NetworkText
  | .network n _ => some n
  | .port _ => none

def port? : ObjectText → Option PortText
  | .network _ p => p
  | .port p => some p

def sentence : ObjectText → List Lexeme
  | .network n p => n.sentence ++ part .yyPort PortText.sentence p
  | .port p => Token.yyPort.spelling :: p.sentence

def meaning (net : NetDb) (proto : UInt8) (target : FilterTarget) :
    ObjectText → Except ParseFailure FilterTarget
  | .network n p => do
    let target ← n.meaning net target
    p.elim (.ok target) (PortText.meaning proto target)
  | .port p => p.meaning proto target

end ObjectText

/-! ## The other parts of a rule -/

/-- `proto`. -/
inductive ProtoText
  | number (n : Numeral)
  | name (s : Name)
  deriving DecidableEq, Repr

def ProtoText.sentence : ProtoText → List Lexeme
  | .number n => [n.lexeme]
  | .name s => [s.lexeme]

def ProtoText.meaning (net : NetDb) (rule : FilterRule) :
    ProtoText → Except ParseFailure FilterRule
  | .number n => .ok { rule with proto := UInt8.ofInt n.value }
  | .name s =>
    match net.protobyname s.word with
    | none => .error .crash
    | some n => .ok { rule with proto := UInt8.ofInt n }

def srcMeaning (net : NetDb) (rule : FilterRule) (o : ObjectText) :
    Except ParseFailure FilterRule := do
  let src ← o.meaning net rule.proto rule.src
  pure { rule with src }

def dstMeaning (net : NetDb) (rule : FilterRule) (o : ObjectText) :
    Except ParseFailure FilterRule := do
  let dst ← o.meaning net rule.proto rule.dst
  pure { rule with dst }

/-- `flags`. -/
structure FlagsText where
  set : Name
  mask : Option Name
  deriving DecidableEq, Repr

def FlagsText.sentence (f : FlagsText) : List Lexeme :=
  f.set.lexeme :: part .slash (fun m : Name => [m.lexeme]) f.mask

/-- The bits of the letters. -/
def Name.flag (s : Name) : Except ParseFailure Int8 :=
  match FilterParser.tcpFlags 0 s.word with
  | none => .error .reject
  | some flags => .ok flags

def FlagsText.meaning (rule : FilterRule) (f : FlagsText) : Except ParseFailure FilterRule := do
  let set ← f.set.flag
  let proto : UInt8 := if rule.proto = 0 then 6 else rule.proto
  let rule := { rule with proto, flags := { rule.flags with set } }
  f.mask.elim (.ok rule) fun m => do
    let mask ← m.flag
    pure { rule with flags := { rule.flags with mask } }

/-- `redir`. -/
structure RedirText where
  host : Name
  port : Numeral
  deriving DecidableEq, Repr

def RedirText.sentence (r : RedirText) : List Lexeme :=
  [Token.yyTo.spelling, r.host.lexeme, Token.yyPort.spelling, r.port.lexeme]

def RedirText.meaning (net : NetDb) (rule : FilterRule) (r : RedirText) :
    Except ParseFailure FilterRule := do
  let port ← r.port.portnum
  pure { rule with
    verdict :=
      { rule.verdict with dnatIp := net.inetAddr r.host.word, dnatPort := UInt16.ofInt port } }

/-- `rate`. -/
def rateMeaning (rule : FilterRule) (n : Numeral) : Except ParseFailure FilterRule :=
  .ok { rule with
    verdict :=
      { rule.verdict with
        action := rule.verdict.action ||| SW_FILTER_ACTION_SHAPE
        shapeRate := n.value } }

/-- `action`. -/
inductive ActionText
  | block | pass | dnat
  | shape (rate : Numeral)
  deriving DecidableEq, Repr

def ActionText.sentence : ActionText → List Lexeme
  | .block => [Token.yyBlock.spelling]
  | .pass => [Token.yyPass.spelling]
  | .dnat => [Token.yyDnat.spelling]
  | .shape n => [Token.yyShape.spelling, Token.yyRate.spelling, n.lexeme]

def ActionText.rule : ActionText → FilterRule
  | .block => FilterParser.newRule SW_FILTER_ACTION_BLOCK 0
  | .pass => FilterParser.newRule SW_FILTER_ACTION_PASS 0
  | .dnat => FilterParser.newRule SW_FILTER_ACTION_DNAT 0
  | .shape n => FilterParser.newRule SW_FILTER_ACTION_SHAPE n.value

/-- `markin` and `markout`. -/
def MatchMode.token : MatchMode → Token
  | .inward => .yyIn
  | .outward => .yyOut

/-! ## Rules -/

/-- `inrule` and `outrule`. -/
structure RuleText where
  action : ActionText
  dir : MatchMode
  proto : Option ProtoText
  src : Option ObjectText
  dst : Option ObjectText
  flags : Option FlagsText
  redir : Option RedirText
  rate : Option Numeral
  flags_proto : flags.isSome → proto.isSome
  redir_inward : redir.isSome → dir = .inward
  deriving DecidableEq, Repr

namespace RuleText

def sentence (r : RuleText) : List Lexeme :=
  r.action.sentence ++ r.dir.token.spelling ::
    (part .yyProto ProtoText.sentence r.proto ++ (part .yyFrom ObjectText.sentence r.src ++
      (part .yyTo ObjectText.sentence r.dst ++ (part .yyFlags FlagsText.sentence r.flags ++
        (part .yyRedir RedirText.sentence r.redir ++
          part .yyRate (fun n : Numeral => [n.lexeme]) r.rate)))))

/-- The rule of a text, without its number. -/
def meaning (net : NetDb) (r : RuleText) : Except ParseFailure (MatchMode × FilterRule) := do
  let rule := r.action.rule
  let rule ← r.proto.elim (.ok rule) (ProtoText.meaning net rule)
  let rule ← r.src.elim (.ok rule) (srcMeaning net rule)
  let rule ← r.dst.elim (.ok rule) (dstMeaning net rule)
  let rule ← r.flags.elim (.ok rule) (FlagsText.meaning rule)
  let rule ← r.redir.elim (.ok rule) (RedirText.meaning net rule)
  let rule ← r.rate.elim (.ok rule) (rateMeaning rule)
  pure (r.dir, rule)

/-- `pass in` with a protocol, a source and a destination. -/
def passIn (proto : Option ProtoText) (src dst : Option ObjectText) : RuleText :=
  ⟨.pass, .inward, proto, src, dst, none, none, none, nofun, nofun⟩

end RuleText

/-- The text is these rules, one after the other, whatever the blanks and comments. -/
def Written (text : List Char) (rs : List RuleText) : Prop :=
  lexemes text = rs.flatMap RuleText.sentence

instance (text : List Char) (rs : List RuleText) : Decidable (Written text rs) := by
  unfold Written
  infer_instance

end Sweetspot
