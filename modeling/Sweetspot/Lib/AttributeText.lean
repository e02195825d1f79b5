import Mathlib.Data.List.Basic
import Mathlib.Logic.Function.Basic
import Mathlib.Tactic.Common

/-!
# Attributes as lines of text

An attribute is written as a line of its own: a tab, its name, ` = ` and its value.  The names come
from a dictionary, which says that they have no blank and are told apart.  What does a reader find
who looks a name up in the lines?

* `render`: the text of a list of attributes.
* `find`, `findNat`: the value that a text gives a name, as it stands and as a decimal number.
* `find_render`: the first attribute of that name, if the text was rendered.
* `readNat_numeral`: a number that was written in decimal is read back.
-/

namespace AttributeText

/-- The names of the attributes of a kind. -/
structure Dictionary (N : Type*) where
  text : N → List Char
  injective : Function.Injective text
  plain : ∀ name, ' ' ∉ text name ∧ '\n' ∉ text name

/-- An attribute: its value ends with the line. -/
structure Attribute (N : Type*) where
  name : N
  value : List Char
  plain : '\n' ∉ value

variable {N : Type*} (d : Dictionary N)

/-- The line of an attribute. -/
def line (a : Attribute N) : List Char := '\t' :: (d.text a.name ++ ' ' :: '=' :: ' ' :: a.value)

/-- The lines of the attributes, in order. -/
def render (attrs : List (Attribute N)) : List Char := attrs.flatMap fun a => line d a ++ ['\n']

/-- The name and the value that a line shows. -/
def readLine : List Char → Option (List Char × List Char)
  | '\t' :: rest =>
    match rest.dropWhile (· ≠ ' ') with
    | ' ' :: '=' :: ' ' :: value => some (rest.takeWhile (· ≠ ' '), value)
    | _ => none
  | _ => none

/-- The value of the first line with that name. -/
def find (text : List Char) (name : N) : Option (List Char) :=
  ((text.splitOn '\n').filterMap readLine).lookup (d.text name)

/-- The number that a numeral stands for. -/
def readNat (value : List Char) : Option ℕ :=
  if value ≠ [] ∧ value.all Char.isDigit then some (Nat.ofDigitChars 10 value 0) else none

/-- The value of the first line with that name, if it is a number. -/
def findNat (text : List Char) (name : N) : Option ℕ := (find d text name).bind readNat

/-! ## Lines -/

theorem readLine_line (a : Attribute N) : readLine (line d a) = some (d.text a.name, a.value) := by
  have hname : ∀ c ∈ d.text a.name, decide (c ≠ ' ') = true := by
    intro c hc
    have hne : c ≠ ' ' := fun h => (d.plain a.name).1 (h ▸ hc)
    simpa using hne
  simp only [line, readLine]
  rw [List.dropWhile_append_of_pos hname, List.takeWhile_append_of_pos hname]
  simp

theorem notMem_line (a : Attribute N) : '\n' ∉ line d a := by
  have hname := (d.plain a.name).2
  have hvalue := a.plain
  simp [line, hname, hvalue]

theorem splitOn_render (attrs : List (Attribute N)) :
    (render d attrs).splitOn '\n' = attrs.map (line d) ++ [[]] := by
  induction attrs with
  | nil => rfl
  | cons a attrs ih =>
    have hcons : render d (a :: attrs) = line d a ++ '\n' :: render d attrs := by
      simp [render]
    rw [hcons, List.splitOn_append_cons_self_of_not_mem (notMem_line d a), ih]
    rfl

theorem readLines_render (attrs : List (Attribute N)) :
    ((render d attrs).splitOn '\n').filterMap readLine =
      attrs.map fun a => (d.text a.name, a.value) := by
  have hline : readLine ∘ line d = fun a => some (d.text a.name, a.value) := by
    funext a
    exact readLine_line d a
  rw [splitOn_render, List.filterMap_append, List.filterMap_map, hline, List.filterMap_eq_map']
  exact List.append_nil _

/-- **Lookup.**  In the text of a list of attributes a name has the value of the first attribute
of that name. -/
theorem find_render [DecidableEq N] (attrs : List (Attribute N)) (name : N) :
    find d (render d attrs) name = (attrs.find? fun a => a.name = name).map Attribute.value := by
  rw [find, readLines_render]
  induction attrs with
  | nil => rfl
  | cons a attrs ih =>
    rw [List.map_cons, List.lookup_cons, List.find?_cons]
    by_cases hname : a.name = name
    · simp [hname]
    · have htext : ¬ d.text name = d.text a.name := fun h => hname (d.injective h).symm
      simp only [hname, beq_eq_false_iff_ne.2 htext, decide_false]
      exact ih

/-! ## Numerals -/

theorem isDigit_of_mem_numeral {n : ℕ} {c : Char} (h : c ∈ Nat.toDigits 10 n) :
    c.isDigit = true :=
  Nat.isDigit_of_mem_toDigits (by decide) (by decide) h

/-- A numeral is read back. -/
theorem readNat_numeral (n : ℕ) : readNat (Nat.toDigits 10 n) = some n := by
  have hall : (Nat.toDigits 10 n).all Char.isDigit = true :=
    List.all_eq_true.2 fun c hc => isDigit_of_mem_numeral hc
  rw [readNat, if_pos ⟨Nat.toDigits_ne_nil, hall⟩,
    Nat.ofDigitChars_toDigits (by decide) (by decide)]

/-- An attribute with a number for its value. -/
def Attribute.number (name : N) (n : ℕ) : Attribute N :=
  ⟨name, Nat.toDigits 10 n, fun h => absurd (isDigit_of_mem_numeral h) (by decide)⟩

/-- An attribute with a number in quotation marks. -/
def Attribute.quoted (name : N) (n : ℕ) : Attribute N where
  name := name
  value := '"' :: (Nat.toDigits 10 n ++ ['"'])
  plain := by
    have hdigits : '\n' ∉ Nat.toDigits 10 n :=
      fun h => absurd (isDigit_of_mem_numeral h) (by decide)
    simp [hdigits]

@[simp] theorem Attribute.number_name (name : N) (n : ℕ) : (number name n).name = name := rfl

@[simp] theorem Attribute.quoted_name (name : N) (n : ℕ) : (quoted name n).name = name := rfl

@[simp] theorem readNat_number_value (name : N) (n : ℕ) :
    readNat (Attribute.number name n).value = some n := readNat_numeral n

end AttributeText
