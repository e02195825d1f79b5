import Sweetspot.Filter.Scanner

/-!
# Words and marks of a filter text

A token no longer shows how it was written: the number of a word of digits is what `atol` and an
`int` leave of it.  Here the text is cut into its words and marks, and the tokens come after.

* `lexemes`, `scan_eq_map_token`: the pieces of a text, each of which becomes one token.
* `Numeral`, `Name`: the words that become a number and a string.  `Numeral.decimal` is the number
  as written and `Numeral.value` the number as kept; `Numeral.value_of_lt` says that below `2 ^ 31`
  they are the same.
* `eq_spelling`, `exists_numeral`, `exists_name`: from a token back to what was written.
-/

namespace Sweetspot

/-- A piece of a text: a word, or another character that is not blank. -/
inductive Lexeme
  | word (w : List Char)
  | mark (c : Char)
  deriving DecidableEq, Repr

/-- The token of a piece. -/
def Lexeme.token : Lexeme → Token
  | .word w => wordToken w
  | .mark c => markToken c

/-- The word that is over, given its characters from the last. -/
def endLexeme : List Char → List Lexeme
  | [] => []
  | c :: cs => [.word (c :: cs).reverse]

/-- `scanLoop` before the words and marks become tokens. -/
def lexemesLoop : StartCondition → List Char → List Char → List Lexeme
  | _, word, [] => endLexeme word
  | .comment, word, c :: text =>
    if c = '\n' then lexemesLoop .initial word text else lexemesLoop .comment word text
  | .initial, word, c :: text =>
    if isWordChar c then lexemesLoop .initial (c :: word) text
    else if c = '#' then endLexeme word ++ lexemesLoop .comment [] text
    else if isBlank c then endLexeme word ++ lexemesLoop .initial [] text
    else endLexeme word ++ .mark c :: lexemesLoop .initial [] text

/-- The pieces of a text, in order. -/
def lexemes (text : List Char) : List Lexeme := lexemesLoop .initial [] text

theorem endWord_eq (word : List Char) : endWord word = (endLexeme word).map Lexeme.token := by
  cases word <;> rfl

theorem scanLoop_eq (state : StartCondition) (word text : List Char) :
    scanLoop state word text = (lexemesLoop state word text).map Lexeme.token := by
  induction text generalizing state word with
  | nil =>
    cases state <;> exact endWord_eq word
  | cons c text ih =>
    cases state with
    | initial =>
      rw [scanLoop, lexemesLoop]
      split
      · exact ih _ _
      split
      · rw [List.map_append, endWord_eq, ih]
      split
      · rw [List.map_append, endWord_eq, ih]
      · rw [List.map_append, List.map_cons, endWord_eq, ih]
        rfl
    | comment =>
      rw [scanLoop, lexemesLoop]
      split
      · exact ih _ _
      · exact ih _ _

/-- **The tokens of a text** are those of its pieces. -/
theorem scan_eq_map_token (text : List Char) : scan text = (lexemes text).map Lexeme.token :=
  scanLoop_eq .initial [] text

/-! ## Keywords -/

/-- A keyword or a mark that the grammar has. -/
def Token.Fixed : Token → Prop
  | .number _ | .string _ | .yyError => False
  | _ => True

instance (t : Token) : Decidable t.Fixed := by
  cases t <;> first | exact instDecidableTrue | exact instDecidableFalse

/-- How a keyword or a mark is written. -/
def Token.spelling : Token → Lexeme
  | .colon => .mark ':'
  | .slash => .mark '/'
  | .comma => .mark ','
  | t => .word (((keywords.find? fun k => k.2 = t).map Prod.fst).getD [])

theorem token_spelling {t : Token} (ht : t.Fixed) : t.spelling.token = t := by
  cases t <;> first | exact ht.elim | decide

theorem mem_of_lookup {w : List Char} {t : Token} (h : keywords.lookup w = some t) :
    (w, t) ∈ keywords := by
  obtain ⟨l₁, l₂, hl, -⟩ := List.lookup_eq_some_iff.1 h
  rw [hl]
  exact List.mem_append_right _ List.mem_cons_self

theorem keywords_spelling : ∀ k ∈ keywords, k.2.Fixed ∧ k.2.spelling = .word k.1 := by decide

/-- A word of digits is no keyword. -/
theorem keywords_digits : ∀ k ∈ keywords, k.1.all Char.isDigit = false := by decide

theorem wordToken_of_lookup {w : List Char} {t : Token} (h : keywords.lookup w = some t) :
    wordToken w = t := by
  rw [wordToken, h]

theorem wordToken_of_none {w : List Char} (h : keywords.lookup w = none) :
    wordToken w = if w.all Char.isDigit then .number (int32 (atol w)) else .string w := by
  rw [wordToken, h]

/-- **A keyword or a mark is written in one way.** -/
theorem eq_spelling {l : Lexeme} {t : Token} (ht : t.Fixed) (h : l.token = t) :
    l = t.spelling := by
  cases l with
  | word w =>
    cases hlookup : keywords.lookup w with
    | some t' =>
      have htoken : t' = t := (wordToken_of_lookup hlookup).symm.trans h
      rw [← htoken]
      exact (keywords_spelling _ (mem_of_lookup hlookup)).2.symm
    | none =>
      have htoken : wordToken w = t := h
      rw [wordToken_of_none hlookup] at htoken
      split at htoken
      · rw [← htoken] at ht
        exact ht.elim
      · rw [← htoken] at ht
        exact ht.elim
  | mark c =>
    have htoken : markToken c = t := h
    rw [markToken] at htoken
    split at htoken
    · rename_i hc
      rw [hc, ← htoken]
      rfl
    split at htoken
    · rename_i hc
      rw [hc, ← htoken]
      rfl
    split at htoken
    · rename_i hc
      rw [hc, ← htoken]
      rfl
    · rw [← htoken] at ht
      exact ht.elim

/-! ## Numerals -/

/-- A word of digits. -/
structure Numeral where
  word : List Char
  digits : word.all Char.isDigit = true
  deriving DecidableEq, Repr

namespace Numeral

variable (n : Numeral)

def lexeme : Lexeme := .word n.word

/-- The number as it is written. -/
def decimal : ℕ := Nat.ofDigitChars 10 n.word 0

/-- The number as it is kept, in `yylval.number`. -/
def value : ℤ := int32 (atol n.word)

theorem token_lexeme : n.lexeme.token = .number n.value := by
  have hlookup : keywords.lookup n.word = none := by
    by_contra hsome
    obtain ⟨t, ht⟩ := Option.ne_none_iff_exists'.1 hsome
    have hdigits := keywords_digits _ (mem_of_lookup ht)
    rw [n.digits] at hdigits
    cases hdigits
  show wordToken n.word = _
  rw [wordToken_of_none hlookup, if_pos n.digits]
  rfl

theorem atol_eq : atol n.word = min (n.decimal : ℤ) 0x7fffffffffffffff := by
  have hfold : ∀ (word : List Char) (z : ℕ),
      word.foldl (fun (n : ℤ) c => n * 10 + ((c.toNat - '0'.toNat : ℕ) : ℤ)) z =
        Nat.ofDigitChars 10 word z := by
    intro word
    induction word with
    | nil =>
      intro z
      rw [List.foldl_nil, Nat.ofDigitChars_nil]
    | cons c word ih =>
      intro z
      have hnext : (z : ℤ) * 10 + (c.toNat - '0'.toNat : ℕ) =
          ((10 * z + (c.toNat - '0'.toNat) : ℕ) : ℤ) := by
        push_cast
        ring
      rw [List.foldl_cons, Nat.ofDigitChars_cons, hnext, ih]
  have hzero := hfold n.word 0
  rw [Nat.cast_zero] at hzero
  rw [atol, hzero]
  rfl

/-- **A number below `2 ^ 31` is kept as it is written.** -/
theorem value_of_lt (h : n.decimal < 2 ^ 31) : n.value = n.decimal := by
  have hmin : min (n.decimal : ℤ) 0x7fffffffffffffff = n.decimal := by omega
  rw [value, atol_eq, hmin, int32, Int.bmod_eq_of_le (by omega) (by omega)]

theorem value_lt : n.value < 2 ^ 31 := by
  rw [value, int32]
  have := Int.bmod_lt (x := atol n.word) (m := 2 ^ 32) (by decide)
  omega

end Numeral

/-- A number is written as a word of digits. -/
theorem exists_numeral {l : Lexeme} {z : ℤ} (h : l.token = .number z) :
    ∃ n : Numeral, l = n.lexeme ∧ z = n.value := by
  cases l with
  | word w =>
    have htoken : wordToken w = .number z := h
    cases hlookup : keywords.lookup w with
    | some t =>
      rw [wordToken_of_lookup hlookup] at htoken
      have hfixed := (keywords_spelling _ (mem_of_lookup hlookup)).1
      rw [htoken] at hfixed
      exact hfixed.elim
    | none =>
      rw [wordToken_of_none hlookup] at htoken
      split at htoken
      · rename_i hdigits
        cases htoken
        exact ⟨⟨w, hdigits⟩, rfl, rfl⟩
      · cases htoken
  | mark c =>
    have htoken : markToken c = .number z := h
    rw [markToken] at htoken
    split_ifs at htoken

/-! ## Names -/

/-- A word that is neither a keyword nor a number. -/
structure Name where
  word : List Char
  plain : wordToken word = .string word
  deriving DecidableEq, Repr

def Name.lexeme (s : Name) : Lexeme := .word s.word

theorem Name.token_lexeme (s : Name) : s.lexeme.token = .string s.word := s.plain

/-- A string is written as a word of that kind. -/
theorem exists_name {l : Lexeme} {w : List Char} (h : l.token = .string w) :
    ∃ s : Name, l = s.lexeme ∧ w = s.word := by
  cases l with
  | word w' =>
    have htoken : wordToken w' = .string w := h
    cases hlookup : keywords.lookup w' with
    | some t =>
      rw [wordToken_of_lookup hlookup] at htoken
      have hfixed := (keywords_spelling _ (mem_of_lookup hlookup)).1
      rw [htoken] at hfixed
      exact hfixed.elim
    | none =>
      have hplain := htoken
      rw [wordToken_of_none hlookup] at htoken
      split at htoken
      · cases htoken
      · have hw : w' = w := Token.string.inj htoken
        exact ⟨⟨w', by rw [hplain, hw]⟩, rfl, hw.symm⟩
  | mark c =>
    have htoken : markToken c = .string w := h
    rw [markToken] at htoken
    split_ifs at htoken

end Sweetspot
