import Mathlib.Data.List.DropRight
import Sweetspot.Filter.Numbers
import Sweetspot.Lib.NulString

/-!
# Filters from files

A file is read into an array, and a NUL is put over the last octet that was read.  So the parser
gets a text without its end, which may be a filter all the same, and another one.

* `filterLoadText`: from the octets of a file to its rules.
* `exists_lexemesLoop_append`: the scanner in the middle of a text.
* `RuleText.exists_eq_cons`: a rule begins with its action, and there is no other one in it.
* `exists_written_append`: so a text and its beginning, if they have as many rules, differ in
  the last one at most.
* `NothingBehind`, `filterParseRuleset_append_iff`: what it takes for the beginning of a text to
  have the rules of the text.
* `loadedWhole_iff`: the files that are loaded whole.
-/

namespace Sweetspot

/-! ## The loader -/

/-- `sizeof(filter_text)`. -/
def FILTER_TEXT_SIZE : ℕ := 16384

/-- `filter_text` when it goes to the parser, given what the array held before; `none` if the file
is too big. -/
def readFilterText (stack file : List UInt8) : Option (List UInt8) :=
  let rc := min file.length (FILTER_TEXT_SIZE - 1)
  if rc = FILTER_TEXT_SIZE - 1 then none
  -- nothing was read, and the NUL goes before the array
  else if rc = 0 then some stack
  else some ((file.take rc ++ stack.drop rc).set (rc - 1) 0)

def octetChar (b : UInt8) : Char := Char.ofNat b.toNat

/-- `sw_filter_load` from `read` on: the parser takes the array for a string. -/
def filterLoadText (net : NetDb) (stack file : List UInt8) :
    Except ParseFailure (Ruleset × Ruleset) :=
  match readFilterText stack file with
  | none => .error .reject
  | some text => filterParseRuleset net ((NulString.str text).map octetChar)

/-- A file that fills the array is refused. -/
theorem filterLoadText_of_length {net : NetDb} {stack file : List UInt8}
    (h : FILTER_TEXT_SIZE - 1 ≤ file.length) : filterLoadText net stack file = .error .reject := by
  rw [filterLoadText, readFilterText, min_eq_right h, if_pos rfl]

/-- **The last octet is lost**, and all behind a NUL. -/
theorem filterLoadText_concat {net : NetDb} {stack file : List UInt8} {c : UInt8}
    (h : file.length + 1 < FILTER_TEXT_SIZE - 1) : filterLoadText net stack (file ++ [c]) =
      filterParseRuleset net ((NulString.str file).map octetChar) := by
  have hlen : (file ++ [c]).length = file.length + 1 := List.length_append
  have hset : (((file ++ [c]) ++ stack.drop (file.length + 1)).set file.length 0) =
      file ++ 0 :: stack.drop (file.length + 1) := by
    rw [List.append_assoc, List.set_append_right _ _ le_rfl, Nat.sub_self]
    rfl
  have hstr : NulString.str (file ++ 0 :: stack.drop (file.length + 1)) = NulString.str file := by
    rcases NulString.notMem_or_eq_append file with hfile | ⟨pre, rest, rfl, hpre⟩
    · rw [NulString.str_append_nul hfile, NulString.str_of_notMem hfile]
    · rw [List.append_assoc, List.cons_append, NulString.str_append_nul hpre,
        NulString.str_append_nul hpre]
  rw [filterLoadText, readFilterText, hlen, min_eq_left (by omega), if_neg (by omega),
    if_neg (by omega), ← hlen, List.take_length, hlen, Nat.add_sub_cancel, hset, ← hstr]

/-! ## The scanner in the middle of a text -/

theorem exists_lexemesLoop_append (text : List Char) (state : StartCondition) (word : List Char) :
    ∃ pieces state' word', ∀ rest,
      lexemesLoop state word (text ++ rest) = pieces ++ lexemesLoop state' word' rest := by
  induction text generalizing state word with
  | nil => exact ⟨[], state, word, fun _ => rfl⟩
  | cons c text ih =>
    -- `c` ends some pieces, and the scanner goes on from there
    obtain ⟨first, state₁, word₁, hfirst⟩ : ∃ first state₁ word₁, ∀ rest,
        lexemesLoop state word (c :: rest) = first ++ lexemesLoop state₁ word₁ rest := by
      cases state with
      | initial =>
        by_cases hword : isWordChar c
        · exact ⟨[], .initial, c :: word, fun _ => by rw [lexemesLoop, if_pos hword]; rfl⟩
        by_cases hcomment : c = '#'
        · exact ⟨endLexeme word, .comment, [], fun _ => by
            rw [lexemesLoop, if_neg hword, if_pos hcomment]⟩
        by_cases hblank : isBlank c
        · exact ⟨endLexeme word, .initial, [], fun _ => by
            rw [lexemesLoop, if_neg hword, if_neg hcomment, if_pos hblank]⟩
        · exact ⟨endLexeme word ++ [.mark c], .initial, [], fun _ => by
            rw [lexemesLoop, if_neg hword, if_neg hcomment, if_neg hblank, List.append_assoc]
            rfl⟩
      | comment =>
        by_cases hnewline : c = '\n'
        · exact ⟨[], .initial, word, fun _ => by rw [lexemesLoop, if_pos hnewline]; rfl⟩
        · exact ⟨[], .comment, word, fun _ => by rw [lexemesLoop, if_neg hnewline]; rfl⟩
    obtain ⟨pieces, state', word', hpieces⟩ := ih state₁ word₁
    refine ⟨first ++ pieces, state', word', fun rest => ?_⟩
    rw [List.cons_append, hfirst, hpieces, List.append_assoc]

/-- **What is behind a text** changes its last piece at most. -/
theorem exists_lexemes_append (text rest : List Char) : ∃ pieces last others,
    lexemes text = pieces ++ last ∧ lexemes (text ++ rest) = pieces ++ others ∧
      last.length ≤ 1 := by
  obtain ⟨pieces, state, word, h⟩ := exists_lexemesLoop_append text .initial []
  refine ⟨pieces, endLexeme word, lexemesLoop state word rest, ?_, h rest, ?_⟩
  · rw [lexemes, ← List.append_nil text, h []]
    cases state <;> rfl
  · cases word with
    | nil => exact Nat.zero_le 1
    | cons c word => exact le_refl 1

/-! ## Actions -/

def Lexeme.isAction (l : Lexeme) : Bool :=
  match l.token with
  | .yyBlock | .yyPass | .yyDnat | .yyShape => true
  | _ => false

@[simp] theorem Numeral.isAction_lexeme (n : Numeral) : n.lexeme.isAction = false := by
  rw [Lexeme.isAction, n.token_lexeme]

@[simp] theorem Name.isAction_lexeme (s : Name) : s.lexeme.isAction = false := by
  rw [Lexeme.isAction, s.token_lexeme]

/-- A keyword that is no action. -/
theorem isAction_spelling : ∀ t ∈ [Token.yyRate, .yyFlags, .yyRedir, .yyIn, .yyOut, .yyProto,
    .yyFrom, .yyTo, .yyPort, .yyEq, .yyNe, .yyLt, .yyLe, .yyGt, .yyGe, .yyMask, .colon, .slash,
    .comma], t.spelling.isAction = false := by
  decide

theorem countP_part {δ : Type} {k : Token} {sentence : δ → List Lexeme}
    (hk : k.spelling.isAction = false) (h : ∀ x, (sentence x).countP Lexeme.isAction = 0)
    (o : Option δ) : (part k sentence o).countP Lexeme.isAction = 0 := by
  cases o with
  | none => rfl
  | some x =>
    rw [part, Option.elim_some, List.countP_cons, h, hk]
    rfl

theorem PortText.countP_sentence (t : PortText) : t.sentence.countP Lexeme.isAction = 0 := by
  have hcomma := isAction_spelling .comma (by decide)
  have hcolon := isAction_spelling .colon (by decide)
  cases t with
  | set op first others =>
    have hop : op.token.spelling.isAction = false := by cases op <;> decide
    have hothers : (others.flatMap fun p => [Token.comma.spelling, p.lexeme]).countP
        Lexeme.isAction = 0 := by
      induction others with
      | nil => rfl
      | cons p others ih => simp [ih, hcomma]
    simp [sentence, portnumsSentence, hop, hothers]
  | compare op p =>
    have hop : op.token.spelling.isAction = false := by cases op <;> decide
    simp [sentence, hop]
  | range lo hi => simp [sentence, hcolon]

theorem countP_maskSentence (m : Option MaskText) :
    (maskSentence m).countP Lexeme.isAction = 0 := by
  have hmask := isAction_spelling .yyMask (by decide)
  have hslash := isAction_spelling .slash (by decide)
  rcases m with _ | m | n
  · rfl
  · simp [maskSentence, hmask]
  · simp [maskSentence, hslash]

theorem ObjectText.countP_sentence (o : ObjectText) : o.sentence.countP Lexeme.isAction = 0 := by
  have hport := isAction_spelling .yyPort (by decide)
  cases o with
  | network n p =>
    simp [sentence, NetworkText.sentence, countP_maskSentence,
      countP_part hport PortText.countP_sentence]
  | port p => simp [sentence, hport, p.countP_sentence]

theorem ProtoText.countP_sentence (t : ProtoText) : t.sentence.countP Lexeme.isAction = 0 := by
  cases t <;> simp [sentence]

theorem FlagsText.countP_sentence (f : FlagsText) : f.sentence.countP Lexeme.isAction = 0 := by
  have hslash := isAction_spelling .slash (by decide)
  simp [sentence, countP_part hslash]

theorem RedirText.countP_sentence (r : RedirText) : r.sentence.countP Lexeme.isAction = 0 := by
  simp [sentence, isAction_spelling .yyTo (by decide), isAction_spelling .yyPort (by decide)]

/-- **A rule begins with its action**, and there is no other one in it. -/
theorem RuleText.exists_eq_cons (r : RuleText) : ∃ k ls, r.sentence = k :: ls ∧
    k.isAction ∧ ls ≠ [] ∧ ls.countP Lexeme.isAction = 0 := by
  obtain ⟨k, ls, hk, hls, haction⟩ : ∃ k ls, r.action.sentence = k :: ls ∧
      ls.countP Lexeme.isAction = 0 ∧ k.isAction := by
    cases r.action with
    | block => exact ⟨_, [], rfl, rfl, by decide⟩
    | pass => exact ⟨_, [], rfl, rfl, by decide⟩
    | dnat => exact ⟨_, [], rfl, rfl, by decide⟩
    | shape n =>
      exact ⟨_, _, rfl, by simp [isAction_spelling .yyRate (by decide)], by decide⟩
  have hdir : r.dir.token.spelling.isAction = false := by cases r.dir <;> decide
  have hnumeral : ∀ n : Numeral, [n.lexeme].countP Lexeme.isAction = 0 := by simp
  refine ⟨k, _, by rw [RuleText.sentence, hk]; rfl, haction, ?_, ?_⟩
  · exact List.append_ne_nil_of_right_ne_nil _ (List.cons_ne_nil _ _)
  · simp [hls, hdir, countP_part (isAction_spelling .yyProto (by decide)) ProtoText.countP_sentence,
      countP_part (isAction_spelling .yyFrom (by decide)) ObjectText.countP_sentence,
      countP_part (isAction_spelling .yyTo (by decide)) ObjectText.countP_sentence,
      countP_part (isAction_spelling .yyFlags (by decide)) FlagsText.countP_sentence,
      countP_part (isAction_spelling .yyRedir (by decide)) RedirText.countP_sentence,
      countP_part (isAction_spelling .yyRate (by decide)) hnumeral]

theorem countP_flatMap_sentence (rs : List RuleText) :
    (rs.flatMap RuleText.sentence).countP Lexeme.isAction = rs.length := by
  induction rs with
  | nil => rfl
  | cons r rs ih =>
    obtain ⟨k, ls, hr, hk, -, hls⟩ := r.exists_eq_cons
    rw [List.flatMap_cons, hr, List.countP_append, List.countP_cons, hls, ih, if_pos hk,
      List.length_cons]
    omega

theorem rdropWhile_append {α : Type} {p : α → Bool} (l : List α) {m : List α}
    (hm : m.countP p = 0) : (l ++ m).rdropWhile (fun x => !p x) = l.rdropWhile fun x => !p x := by
  have hall : ∀ x ∈ m.reverse, !p x := by
    intro x hx
    have h := List.countP_eq_zero.1 hm x (List.mem_reverse.1 hx)
    simpa using h
  rw [List.rdropWhile, List.reverse_append, List.dropWhile_append_of_pos hall, List.rdropWhile]

/-- All but the last rule are before the last action. -/
theorem exists_rdropWhile_eq {text : List Char} {init : List RuleText} {r : RuleText}
    (h : Written text (init ++ [r])) {pieces others : List Lexeme}
    (htext : lexemes text = pieces ++ others) (hothers : others.countP Lexeme.isAction = 0) :
    ∃ k, pieces.rdropWhile (fun l => !l.isAction) = init.flatMap RuleText.sentence ++ [k] := by
  obtain ⟨k, ls, hr, hk, -, hls⟩ := r.exists_eq_cons
  refine ⟨k, ?_⟩
  rw [← rdropWhile_append pieces hothers, ← htext, h, List.flatMap_append, List.flatMap_singleton,
    hr, List.append_cons _ k ls, rdropWhile_append _ hls]
  exact List.rdropWhile_concat_neg _ _ _ (by simpa using hk)

theorem written_concat {text text' : List Char} {init init' : List RuleText} {r r' : RuleText}
    (h : Written text (init ++ [r])) (h' : Written text' (init' ++ [r']))
    {pieces others others' : List Lexeme} (htext : lexemes text = pieces ++ others)
    (htext' : lexemes text' = pieces ++ others') (hothers : others.countP Lexeme.isAction = 0)
    (hothers' : others'.countP Lexeme.isAction = 0) : Written text' (init ++ [r']) := by
  obtain ⟨k, hk⟩ := exists_rdropWhile_eq h htext hothers
  obtain ⟨k', hk'⟩ := exists_rdropWhile_eq h' htext' hothers'
  have hinit := (List.append_inj' (hk.symm.trans hk') rfl).1
  rw [Written, h', List.flatMap_append, List.flatMap_append, hinit]

/-- The last piece of a rule is no action. -/
theorem isAction_of_written_concat {text : List Char} {init : List RuleText} {r : RuleText}
    (h : Written text (init ++ [r])) {pieces : List Lexeme} {l : Lexeme}
    (htext : lexemes text = pieces ++ [l]) : l.isAction = false := by
  obtain ⟨k, ls, hr, -, hne, hls⟩ := r.exists_eq_cons
  rw [h, List.flatMap_append, List.flatMap_singleton, hr] at htext
  have hmem : l ∈ ls := by
    have hlast := congrArg List.getLast? htext
    rw [List.getLast?_concat, List.append_cons, List.getLast?_append_of_ne_nil _ hne] at hlast
    exact List.mem_of_getLast? hlast
  simpa using List.countP_eq_zero.1 hls l hmem

/-- **Filters that begin alike** and have as many rules differ in the last rule at most. -/
theorem exists_written_append {text rest : List Char} {rs rs' : List RuleText}
    (h : Written text rs) (h' : Written (text ++ rest) rs') (hlen : rs.length = rs'.length) :
    lexemes text = lexemes (text ++ rest) ∨ ∃ init r r',
      Written text (init ++ [r]) ∧ Written (text ++ rest) (init ++ [r']) := by
  obtain ⟨pieces, last, others, htext, htext', hlast⟩ := exists_lexemes_append text rest
  rcases List.eq_nil_or_concat' rs with rfl | ⟨init, r, rfl⟩
  · rw [List.length_eq_zero_iff.1 hlen.symm] at h'
    exact Or.inl (h.trans h'.symm)
  rcases List.eq_nil_or_concat' rs' with rfl | ⟨init', r', rfl⟩
  · simp at hlen
  have hzero : last.countP Lexeme.isAction = 0 := by
    match last, hlast with
    | [], _ => rfl
    | [l], _ =>
      rw [List.countP_singleton, isAction_of_written_concat h htext]
      rfl
  -- as many rules, as many actions: there is no other one behind
  have hothers : others.countP Lexeme.isAction = 0 := by
    have hcount := countP_flatMap_sentence (init ++ [r])
    have hcount' := countP_flatMap_sentence (init' ++ [r'])
    rw [← h, htext, List.countP_append, hzero] at hcount
    rw [← h', htext', List.countP_append] at hcount'
    omega
  exact Or.inr ⟨init, r, r', h, written_concat h h' htext htext' hzero hothers⟩

/-! ## The beginning of a text -/

/-- The text is rules that the parser accepts. -/
def IsFilter (net : NetDb) (text : List Char) : Prop :=
  ∃ rs, Written text rs ∧ ∀ r ∈ rs, r.Accepted net

theorem isFilter_iff {net : NetDb} {text : List Char} :
    IsFilter net text ↔ ∃ y, filterParseRuleset net text = .ok y := by
  constructor
  · rintro ⟨rs, hrs, hacc⟩
    exact ⟨_, filterParseRuleset_eq_ok.2 ⟨rs, hrs, hacc, rfl, rfl⟩⟩
  · rintro ⟨y, hy⟩
    obtain ⟨rs, hrs, hacc, -⟩ := filterParseRuleset_eq_ok.1 hy
    exact ⟨rs, hrs, hacc⟩

theorem filterParseRuleset_eq_reject {net : NetDb} {text : List Char} :
    filterParseRuleset net text = .error .reject ↔
      ¬ IsFilter net text ∧ ¬ ComesToUnknownProto net text := by
  rw [isFilter_iff, ← filterParseRuleset_eq_crash]
  cases filterParseRuleset net text with
  | ok y => exact iff_of_false (fun h => by cases h) fun h => h.1 ⟨y, rfl⟩
  | error e => cases e <;> simp

variable {net : NetDb} {init : List RuleText} {r r' : RuleText}

theorem length_storedRuleset (net : NetDb) (rs : List RuleText) :
    (storedRuleset net .inward rs).length + (storedRuleset net .outward rs).length =
      rs.length := by
  simp only [storedRuleset, List.length_mapIdx, List.length_map]
  induction rs with
  | nil => rfl
  | cons r rs ih =>
    cases hdir : r.dir <;> simp [hdir] <;> omega

theorem storedRuleset_concat (net : NetDb) (dir : MatchMode) (init : List RuleText)
    (r : RuleText) : storedRuleset net dir (init ++ [r]) = storedRuleset net dir init ++
      if r.dir = dir then [{ r.store net with num := (storedRuleset net dir init).length }]
      else [] := by
  rw [storedRuleset, List.filter_append, List.map_append, List.mapIdx_append]
  congr 1
  by_cases hdir : r.dir = dir
  · simp [hdir, storedRuleset]
  · simp [hdir]

theorem RuleText.num_store (net : NetDb) (r : RuleText) : (r.store net).num = 0 := by
  rcases r with ⟨action, dir, proto, src, dst, flags, redir, rate, -, -⟩
  cases flags <;> rfl

/-- After the same rules, the same is stored of both. -/
theorem storedRuleset_concat_eq_iff :
    (∀ dir, storedRuleset net dir (init ++ [r]) = storedRuleset net dir (init ++ [r'])) ↔
      r.dir = r'.dir ∧ r.store net = r'.store net := by
  constructor
  · intro h
    have hlast := h r.dir
    rw [storedRuleset_concat, storedRuleset_concat, if_pos rfl, List.append_right_inj] at hlast
    by_cases hdir : r'.dir = r.dir
    · rw [if_pos hdir] at hlast
      have hnum := congrArg (fun x : FilterRule => { x with num := 0 }) (List.cons.inj hlast).1
      refine ⟨hdir.symm, ?_⟩
      have hstore : ∀ r : RuleText, { r.store net with num := 0 } = r.store net :=
        fun r => by rw [← r.num_store net]
      rw [← hstore r, ← hstore r']
      exact hnum
    · rw [if_neg hdir] at hlast
      cases hlast
  · rintro ⟨hdir, hstore⟩ dir
    rw [storedRuleset_concat, storedRuleset_concat, hdir, hstore]

/-- What is behind `text` in `whole` does not count: there is no token in it, or the parser fails
alike with it and without, or it does not change what is stored of the last rule. -/
inductive NothingBehind (net : NetDb) (text whole : List Char) : Prop
  | noToken (h : lexemes text = lexemes whole)
  | noFilter (htext : ¬ IsFilter net text) (hwhole : ¬ IsFilter net whole)
    (hproto : ComesToUnknownProto net text ↔ ComesToUnknownProto net whole)
  | sameRule (init : List RuleText) (r r' : RuleText) (htext : Written text (init ++ [r]))
    (hwhole : Written whole (init ++ [r'])) (hinit : ∀ x ∈ init, x.Accepted net)
    (hr : r.Accepted net) (hr' : r'.Accepted net) (hdir : r.dir = r'.dir)
    (hstore : r.store net = r'.store net)

theorem NothingBehind.filterParseRuleset_eq {net : NetDb} {text whole : List Char}
    (h : NothingBehind net text whole) :
    filterParseRuleset net text = filterParseRuleset net whole := by
  cases h with
  | noToken h =>
    rw [filterParseRuleset, filterParseRuleset, scan_eq_map_token, scan_eq_map_token, h]
  | noFilter htext hwhole hproto =>
    rw [isFilter_iff] at htext hwhole
    rw [← filterParseRuleset_eq_crash, ← filterParseRuleset_eq_crash] at hproto
    cases h : filterParseRuleset net text with
    | ok y => exact absurd ⟨y, h⟩ htext
    | error e =>
      cases h' : filterParseRuleset net whole with
      | ok y => exact absurd ⟨y, h'⟩ hwhole
      | error e' =>
        rw [h, h'] at hproto
        cases e <;> cases e' <;> simp at hproto ⊢
  | sameRule init r r' htext hwhole hinit hr hr' hdir hstore =>
    have hparse : ∀ {text : List Char} {r : RuleText}, Written text (init ++ [r]) →
        r.Accepted net → filterParseRuleset net text =
          .ok (storedRuleset net .inward (init ++ [r]),
            storedRuleset net .outward (init ++ [r])) := by
      intro text r h hr
      refine filterParseRuleset_eq_ok.2 ⟨_, h, ?_, rfl, rfl⟩
      rw [List.forall_mem_append, List.forall_mem_singleton]
      exact ⟨hinit, hr⟩
    have hstored := (@storedRuleset_concat_eq_iff net init r r').2 ⟨hdir, hstore⟩
    rw [hparse htext hr, hparse hwhole hr', hstored .inward, hstored .outward]

/-- The number of rules that are stored is that of the rules of the text, so two texts of which the
same is stored differ in the last one at most. -/
theorem nothingBehind_of_eq_ok {net : NetDb} {text rest : List Char} {y : Ruleset × Ruleset}
    (htext : filterParseRuleset net text = .ok y)
    (hwhole : filterParseRuleset net (text ++ rest) = .ok y) :
    NothingBehind net text (text ++ rest) := by
  obtain ⟨rs, hrs, -, hin, hout⟩ := filterParseRuleset_eq_ok.1 htext
  obtain ⟨rs', hrs', -, hin', hout'⟩ := filterParseRuleset_eq_ok.1 hwhole
  have hlen : rs.length = rs'.length := by
    rw [← length_storedRuleset net rs, ← length_storedRuleset net rs', ← hin, ← hout, ← hin',
      ← hout']
  rcases exists_written_append hrs hrs' hlen with h | ⟨init, r, r', hinit, hinit'⟩
  · exact .noToken h
  · obtain ⟨hacc, hin, hout⟩ := stored_of_written hinit htext
    obtain ⟨hacc', hin', hout'⟩ := stored_of_written hinit' hwhole
    have hlast := storedRuleset_concat_eq_iff.1 fun dir => by
      cases dir with
      | inward => exact hin.symm.trans hin'
      | outward => exact hout.symm.trans hout'
    rw [List.forall_mem_append, List.forall_mem_singleton] at hacc hacc'
    exact .sameRule init r r' hinit hinit' hacc.1 hacc.2 hacc'.2 hlast.1 hlast.2

/-- **When the beginning of a text has the rules of the text.** -/
theorem filterParseRuleset_append_iff {net : NetDb} {text rest : List Char} :
    filterParseRuleset net text = filterParseRuleset net (text ++ rest) ↔
      NothingBehind net text (text ++ rest) := by
  refine ⟨fun hsame => ?_, NothingBehind.filterParseRuleset_eq⟩
  cases htext : filterParseRuleset net text with
  | ok y => exact nothingBehind_of_eq_ok htext (hsame.symm.trans htext)
  | error e =>
    rw [htext] at hsame
    refine .noFilter ?_ ?_ ?_
    · rw [isFilter_iff, htext]
      exact not_exists.2 fun _ => error_ne_ok
    · rw [isFilter_iff, ← hsame]
      exact not_exists.2 fun _ => error_ne_ok
    · rw [← filterParseRuleset_eq_crash, ← filterParseRuleset_eq_crash, htext, hsame]

/-! ## Files -/

/-- The text that the parser gets of a file: its last octet is lost, and all behind a NUL. -/
def keptText (file : List UInt8) : List Char := (NulString.str file.dropLast).map octetChar

/-- A file is loaded as the grammar reads all of it, whatever the array held before, and a newline
at its end makes no difference. -/
structure LoadedWhole (net : NetDb) (file : List UInt8) : Prop where
  exact : ∀ stack, stack.length = FILTER_TEXT_SIZE →
    filterLoadText net stack file = filterParseRuleset net (file.map octetChar)
  newline : ∀ stack stack', stack.length = FILTER_TEXT_SIZE → stack'.length = FILTER_TEXT_SIZE →
    filterLoadText net stack file = filterLoadText net stack' (file ++ [10])

/-- Of an empty file the array is parsed as it was. -/
theorem not_loadedWhole_nil (net : NetDb) : ¬ LoadedWhole net [] := by
  intro h
  have hlen : (38 :: List.replicate (FILTER_TEXT_SIZE - 1) 0 : List UInt8).length =
      FILTER_TEXT_SIZE := by
    rw [List.length_cons, List.length_replicate]
    rfl
  have hload := h.exact _ hlen
  have hstr : NulString.str (38 :: List.replicate (FILTER_TEXT_SIZE - 1) 0) = [38] := by
    rw [FILTER_TEXT_SIZE, List.replicate_succ]
    rfl
  have hread : filterLoadText net (38 :: List.replicate (FILTER_TEXT_SIZE - 1) 0) [] =
      filterParseRuleset net [octetChar 38] := by
    show filterParseRuleset net ((NulString.str _).map octetChar) = _
    rw [hstr]
    rfl
  rw [hread] at hload
  cases hload

/-- With its last octet the text of a file is what it was, or whole. -/
theorem str_concat_eq (file : List UInt8) (c : UInt8) :
    NulString.str (file ++ [c]) = NulString.str file ∨
      NulString.str (file ++ [c]) = file ++ [c] := by
  rcases NulString.notMem_or_eq_append file with hfile | ⟨pre, rest, rfl, hpre⟩
  · rw [NulString.str_append_of_notMem hfile, NulString.str_of_notMem hfile]
    by_cases hc : c = 0
    · exact Or.inl (by rw [hc, NulString.str_nul, List.append_nil])
    · exact Or.inr (congrArg _ (NulString.str_of_notMem (by simpa using Ne.symm hc)))
  · rw [List.append_assoc, List.cons_append, NulString.str_append_nul hpre,
      NulString.str_append_nul hpre]
    exact Or.inl rfl

/-- **The files that are loaded whole**: what is lost does not count, and there is room for a
newline, or nothing to lose. -/
theorem loadedWhole_iff (net : NetDb) {file : List UInt8}
    (hfile : file.length < FILTER_TEXT_SIZE - 1) :
    LoadedWhole net file ↔ file ≠ [] ∧
      NothingBehind net (keptText file) (file.map octetChar) ∧
      (file.length + 1 = FILTER_TEXT_SIZE - 1 →
        ¬ IsFilter net (keptText file) ∧ ¬ ComesToUnknownProto net (keptText file)) := by
  rcases List.eq_nil_or_concat' file with rfl | ⟨init, c, rfl⟩
  · exact iff_of_false (not_loadedWhole_nil net) fun h => h.1 rfl
  have hinit : init.length + 1 < FILTER_TEXT_SIZE - 1 := by
    rw [List.length_append] at hfile
    exact hfile
  have hkept : keptText (init ++ [c]) = (NulString.str init).map octetChar := by
    rw [keptText, List.dropLast_concat]
  obtain ⟨rest, hrest⟩ : ∃ rest, (init ++ [c]).map octetChar = keptText (init ++ [c]) ++ rest := by
    have hstr : NulString.str init <+: init := List.takeWhile_prefix _
    obtain ⟨rest, hrest⟩ := hstr.trans (List.prefix_append init [c])
    exact ⟨rest.map octetChar, by rw [hkept, ← List.map_append, hrest]⟩
  have hload : ∀ stack,
      filterLoadText net stack (init ++ [c]) = filterParseRuleset net (keptText (init ++ [c])) := by
    intro stack
    rw [filterLoadText_concat hinit, hkept]
  have hbehind := @filterParseRuleset_append_iff net (keptText (init ++ [c])) rest
  rw [← hrest] at hbehind
  have hfull : (init ++ [c]).length + 1 = FILTER_TEXT_SIZE - 1 → ∀ stack,
      filterLoadText net stack (init ++ [c] ++ [10]) = .error .reject := by
    intro hlen stack
    exact filterLoadText_of_length (by rw [List.length_append]; exact hlen.ge)
  have hroom : (init ++ [c]).length + 1 ≠ FILTER_TEXT_SIZE - 1 →
      ∀ stack, filterLoadText net stack (init ++ [c] ++ [10]) =
        filterParseRuleset net ((NulString.str (init ++ [c])).map octetChar) := by
    intro hlen stack
    exact filterLoadText_concat (by omega)
  constructor
  · intro h
    have hstack : (List.replicate FILTER_TEXT_SIZE (0 : UInt8)).length = FILTER_TEXT_SIZE :=
      List.length_replicate
    have hexact := h.exact _ hstack
    rw [hload] at hexact
    refine ⟨by simp, hbehind.1 hexact, fun hlen => ?_⟩
    have hnewline := h.newline _ _ hstack hstack
    rw [hload, hfull hlen] at hnewline
    exact filterParseRuleset_eq_reject.1 hnewline
  · rintro ⟨-, hrest, hlast⟩
    refine ⟨fun stack _ => (hload stack).trans (hbehind.2 hrest), fun stack stack' _ _ => ?_⟩
    rw [hload]
    by_cases hlen : (init ++ [c]).length + 1 = FILTER_TEXT_SIZE - 1
    · rw [hfull hlen]
      exact filterParseRuleset_eq_reject.2 (hlast hlen)
    · rw [hroom hlen]
      rcases str_concat_eq init c with hstr | hstr
      · rw [hstr, hkept]
      · rw [hstr]
        exact hbehind.2 hrest

/-- The octets of `pass in` and a newline. -/
def passInLine : List UInt8 := [112, 97, 115, 115, 32, 105, 110, 10]

theorem loadedWhole_iff_line : passInLine.length < FILTER_TEXT_SIZE - 1 ∧
    LoadedWhole .small passInLine := by
  refine ⟨by decide, (loadedWhole_iff .small (by decide)).2 ⟨by decide, ?_, ?_⟩⟩
  · exact .noToken (by decide +kernel)
  · exact fun h => absurd h (by decide)

/-- The octets of `block in proto 1`. -/
def blockProtoOne : List UInt8 :=
  [98, 108, 111, 99, 107, 32, 105, 110, 32, 112, 114, 111, 116, 111, 32, 49]

/-- Of `block in proto 17` a rule for protocol 1 is loaded. -/
theorem loadedWhole_not_proto : (blockProtoOne ++ [55]).length < FILTER_TEXT_SIZE - 1 ∧
    ¬ LoadedWhole .small (blockProtoOne ++ [55]) := by
  refine ⟨by decide, fun h => ?_⟩
  have hexact := h.exact (List.replicate FILTER_TEXT_SIZE 0) List.length_replicate
  rw [filterLoadText_concat (by decide)] at hexact
  revert hexact
  decide +kernel

end Sweetspot
