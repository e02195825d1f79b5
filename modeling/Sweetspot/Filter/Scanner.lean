import Sweetspot.Lib.CInt

/-!
# The scanner of filter files

A filter text is cut into words of letters, digits and dots, separating marks and comments.  The
longest match wins, so a keyword is one only as a whole word, and a word of digits only is a number.

* `scan`: the tokens of a text.
* `scan_append_newline`: a newline at the end of a text changes nothing.
-/

namespace Sweetspot

/-- What the scanner returns; `yyError` is a character it does not know. -/
inductive Token
  | yyBlock | yyPass | yyDnat | yyShape | yyRate | yyFlags | yyRedir | yyIn | yyOut | yyProto
  | yyFrom | yyTo | yyPort | yyEq | yyNe | yyLt | yyLe | yyGt | yyGe | yyMask | yyError
  | colon | slash | comma
  | number (n : ℤ)
  | string (s : List Char)
  deriving DecidableEq, Repr

/-- The words that are keywords. -/
def keywords : List (List Char × Token) :=
  [(['b', 'l', 'o', 'c', 'k'], .yyBlock), (['p', 'a', 's', 's'], .yyPass),
    (['d', 'n', 'a', 't'], .yyDnat), (['s', 'h', 'a', 'p', 'e'], .yyShape),
    (['r', 'a', 't', 'e'], .yyRate), (['f', 'l', 'a', 'g', 's'], .yyFlags),
    (['r', 'e', 'd', 'i', 'r'], .yyRedir), (['i', 'n'], .yyIn), (['o', 'u', 't'], .yyOut),
    (['p', 'r', 'o', 't', 'o'], .yyProto), (['f', 'r', 'o', 'm'], .yyFrom), (['t', 'o'], .yyTo),
    (['p', 'o', 'r', 't'], .yyPort), (['e', 'q'], .yyEq), (['n', 'e'], .yyNe),
    (['l', 't'], .yyLt), (['l', 'e'], .yyLe), (['g', 't'], .yyGt), (['g', 'e'], .yyGe),
    (['m', 'a', 's', 'k'], .yyMask)]

/-- `atol` of digits: a `long`, which does not go beyond the largest. -/
def atol (digits : List Char) : ℤ :=
  min (digits.foldl (fun n c => n * 10 + (c.toNat - '0'.toNat : ℕ)) 0) 0x7fffffffffffffff

/-- The token of a word.  A number is kept in an `int`. -/
def wordToken (word : List Char) : Token :=
  match keywords.lookup word with
  | some token => token
  | none => if word.all Char.isDigit then .number (int32 (atol word)) else .string word

/-- The characters of words. -/
def isWordChar (c : Char) : Bool := c.isAlphanum || c = '.'

def isBlank (c : Char) : Bool := c = ' ' || c = '\t' || c = '\n'

/-- The token of a word that is over, given its characters from the last. -/
def endWord : List Char → List Token
  | [] => []
  | c :: cs => [wordToken (c :: cs).reverse]

/-- The token of a character that is neither of a word nor blank. -/
def markToken (c : Char) : Token :=
  if c = ':' then .colon else if c = '/' then .slash else if c = ',' then .comma else .yyError

/-- `INITIAL` and `comment`. -/
inductive StartCondition
  | initial | comment
  deriving DecidableEq

/-- The scanner, in the middle of a word. -/
def scanLoop : StartCondition → List Char → List Char → List Token
  | _, word, [] => endWord word
  | .comment, word, c :: text =>
    if c = '\n' then scanLoop .initial word text else scanLoop .comment word text
  | .initial, word, c :: text =>
    if isWordChar c then scanLoop .initial (c :: word) text
    else if c = '#' then endWord word ++ scanLoop .comment [] text
    else if isBlank c then endWord word ++ scanLoop .initial [] text
    else endWord word ++ markToken c :: scanLoop .initial [] text

/-- `yylex`, called to the end of the text. -/
def scan (text : List Char) : List Token := scanLoop .initial [] text

/-- **A newline at the end** of a text changes nothing, be it in a comment or not. -/
theorem scan_append_newline (text : List Char) : scan (text ++ ['\n']) = scan text := by
  have hloop : ∀ (state : StartCondition) (word : List Char), (state = .comment → word = []) →
      scanLoop state word (text ++ ['\n']) = scanLoop state word text := by
    induction text with
    | nil =>
      intro state word hword
      cases state with
      | initial =>
        have hnewline : scanLoop .initial word ['\n'] = endWord word ++ [] := rfl
        rw [List.nil_append, hnewline, List.append_nil, scanLoop]
      | comment =>
        rw [hword rfl]
        rfl
    | cons c text ih =>
      intro state word hword
      cases state with
      | initial =>
        rw [List.cons_append, scanLoop, scanLoop, ih .initial (c :: word) (by simp),
          ih .comment [] (by simp), ih .initial [] (by simp)]
      | comment =>
        rw [List.cons_append, scanLoop, scanLoop, hword rfl, ih .initial [] (by simp),
          ih .comment [] (by simp)]
  exact hloop .initial [] (by simp)

example : scan ['p', 'a', 's', 's', ' ', 'i', 'n', '1', '#', 'x'] =
    [.yyPass, .string ['i', 'n', '1']] := by decide

end Sweetspot
