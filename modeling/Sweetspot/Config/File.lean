import Mathlib.Data.List.TakeDrop
import Sweetspot.Lib.CText

/-!
# The configuration file

A line is a key and a value with blanks between them, or empty, or a comment.  The loader reads
pieces of a line that fit its buffer and puts every entry at the front of a list; whoever asks for a
key gets the first entry there, whatever the case of its letters.

* `fgets`, `configLine`, `configLoad`, `configGet`: the loader and the lookup, on any octets.
* `ConfigLine`: a line as it is written.
* `configLoad_text`, `configGet_text`: a file of such lines is loaded whole, and the value of a key
  is that of the last line that gives it one.
-/

namespace Sweetspot

open CText

/-! ## Loading -/

/-- `fgets` with room for so many characters: what it stores, and what is left of the file. -/
def fgets : ℕ → List UInt8 → List UInt8 × List UInt8
  | 0, s => ([], s)
  | _, [] => ([], [])
  | room + 1, c :: s =>
    if c = 10 then ([c], s)
    else
      let (b, rest) := fgets room s
      (c :: b, rest)

/-- What a piece of a line is. -/
inductive ConfigPiece
  | nothing
  | missingValue (key : List UInt8)
  | entry (key value : List UInt8)
  deriving DecidableEq

/-- It is neither a NUL nor the end of a line. -/
def isInner (c : UInt8) : Bool := c ≠ 0 && c ≠ 13 && c ≠ 10

/-- The loop of `sw_config_load` on a piece: up to a NUL or the end of the line, without the blanks
before it; then the key up to a blank, and the value behind the blanks. -/
def configLine (b : List UInt8) : ConfigPiece :=
  let l := (b.takeWhile isInner).dropWhile isSpace
  if l = [] ∨ l.head? = some 35 then .nothing
  else
    let key := l.takeWhile fun c => !isSpace c
    match l.dropWhile fun c => !isSpace c with
    | [] => .missingValue key
    | _ :: value => .entry key (value.dropWhile isSpace)

/-- `global_config_entries`. -/
abbrev ConfigEntries := List (List UInt8 × List UInt8)

/-- `sizeof(b) - 1`, less the NUL. -/
def configRoom : ℕ := 4094

/-- The loop of `sw_config_load`, with the entries so far; every pass takes something off the
file. -/
def configLoop : ℕ → ConfigEntries → List UInt8 → ConfigEntries × Bool
  | 0, entries, _ => (entries, true)
  | _, entries, [] => (entries, true)
  | passes + 1, entries, c :: s =>
    let (b, rest) := fgets configRoom (c :: s)
    match configLine b with
    | .nothing => configLoop passes entries rest
    | .missingValue _ => (entries, false)
    | .entry key value => configLoop passes ((key, value) :: entries) rest

/-- `sw_config_load`; `false` is `-1`. -/
def configLoad (file : List UInt8) : ConfigEntries × Bool := configLoop file.length [] file

/-- `strcasecmp` is 0. -/
def sameKey (key key' : List UInt8) : Bool := key.map toLower = key'.map toLower

/-- `sw_config_get`; `none` is the default. -/
def configGet (entries : ConfigEntries) (key : List UInt8) : Option (List UInt8) :=
  (entries.find? fun entry => sameKey entry.1 key).map Prod.snd

/-! ## Lines as they are written -/

/-- What is in a line. -/
inductive ConfigContent
  | nothing
  | comment (text : List UInt8)
  | entry (key gap value : List UInt8)

/-- A line, which may end as on other systems. -/
structure ConfigLine where
  indent : List UInt8
  content : ConfigContent
  carriageReturn : Bool

namespace ConfigContent

def octets : ConfigContent → List UInt8
  | nothing => []
  | comment text => 35 :: text
  | entry key gap value => key ++ gap ++ value

/-- The key and the value, if there are. -/
def assigned : ConfigContent → Option (List UInt8 × List UInt8)
  | nothing | comment _ => none
  | entry key _ value => some (key, value)

/-- It is what it looks like: a key has no blank in it and is no comment, there is a blank behind
it, and the value starts with none. -/
def IsPlain : ConfigContent → Prop
  | nothing | comment _ => True
  | entry key gap value =>
    (key ≠ [] ∧ key.head? ≠ some 35 ∧ ∀ c ∈ key, isSpace c = false) ∧
      (gap ≠ [] ∧ ∀ c ∈ gap, isSpace c = true) ∧ value.head?.all fun c => !isSpace c

end ConfigContent

namespace ConfigLine

def octets (line : ConfigLine) : List UInt8 := line.indent ++ line.content.octets

/-- The line with its end. -/
def text (line : ConfigLine) : List UInt8 :=
  line.octets ++ if line.carriageReturn then [13, 10] else [10]

def assigned (line : ConfigLine) : Option (List UInt8 × List UInt8) := line.content.assigned

/-- It fits the buffer and is what it looks like. -/
structure Fits (line : ConfigLine) : Prop where
  length : line.text.length ≤ configRoom
  inner : ∀ c ∈ line.octets, isInner c = true
  indent : ∀ c ∈ line.indent, isSpace c = true
  plain : line.content.IsPlain

/-- The value that the line gives a key, if it is about it. -/
def valueOf (line : ConfigLine) (key : List UInt8) : Option (List UInt8) :=
  (line.assigned.filter fun entry => sameKey entry.1 key).map Prod.snd

end ConfigLine

/-- A file of lines. -/
def configText (lines : List ConfigLine) : List UInt8 := lines.flatMap ConfigLine.text

/-- The value that the last line about a key gives it. -/
def setting (lines : List ConfigLine) (key : List UInt8) : Option (List UInt8) :=
  (lines.filterMap fun line => line.valueOf key).getLast?

/-! ## A line is read whole -/

theorem fgets_line {room : ℕ} {line rest : List UInt8} (hline : 10 ∉ line)
    (hroom : line.length < room) : fgets room (line ++ 10 :: rest) = (line ++ [10], rest) := by
  induction line generalizing room with
  | nil =>
    obtain ⟨room, rfl⟩ := Nat.exists_eq_add_of_lt hroom
    rw [List.length_nil, Nat.zero_add, List.nil_append, fgets, if_pos rfl, List.nil_append]
  | cons c line ih =>
    obtain ⟨room, rfl⟩ : ∃ room', room = room' + 1 := ⟨room - 1, by omega⟩
    have hc : c ≠ 10 := fun hc => hline (by rw [hc]; exact List.mem_cons_self)
    rw [List.cons_append, fgets, if_neg hc,
      ih (fun h => hline (List.mem_cons_of_mem _ h)) (by rw [List.length_cons] at hroom; omega)]
    rfl

namespace ConfigContent

/-- What is in a line does not start with a blank. -/
theorem head_octets {content : ConfigContent} (h : content.IsPlain) :
    content.octets.head?.all fun c => !isSpace c := by
  cases content with
  | nothing => rfl
  | comment text => rfl
  | entry key gap value =>
    obtain ⟨⟨hne, -, hkey⟩, -, -⟩ := h
    cases key with
    | nil => exact absurd rfl hne
    | cons c key => simpa [octets] using hkey c List.mem_cons_self

end ConfigContent

/-- **A line is taken for what it looks like.** -/
theorem configLine_text {line : ConfigLine} (h : line.Fits) :
    configLine line.text = match line.assigned with
      | none => .nothing
      | some (key, value) => .entry key value := by
  have hcut : line.text.takeWhile isInner = line.indent ++ line.content.octets := by
    refine takeWhile_stop h.inner ?_
    split <;> rfl
  unfold configLine ConfigLine.assigned
  dsimp only
  rw [hcut, dropWhile_stop h.indent (ConfigContent.head_octets h.plain)]
  have hplain := h.plain
  generalize line.content = content at hplain ⊢
  cases content with
  | nothing => rfl
  | comment text => rfl
  | entry key gap value =>
    obtain ⟨⟨hne, hcomment, hkey⟩, ⟨hgap, hblanks⟩, hvalue⟩ := hplain
    obtain ⟨c, gap, rfl⟩ := List.exists_cons_of_ne_nil hgap
    obtain ⟨k, key, rfl⟩ := List.exists_cons_of_ne_nil hne
    have hsplit : ConfigContent.octets (.entry (k :: key) (c :: gap) value) =
        (k :: key) ++ (c :: (gap ++ value)) := by
      simp [ConfigContent.octets]
    have hnot : ∀ c ∈ k :: key, (!isSpace c) = true := fun c hc => by rw [hkey c hc]; rfl
    have hstop : (c :: (gap ++ value)).head?.all fun c => !(!isSpace c) := by
      simpa using hblanks c List.mem_cons_self
    rw [hsplit, if_neg (by simpa using hcomment), takeWhile_stop hnot hstop,
      dropWhile_stop hnot hstop]
    dsimp only [ConfigContent.assigned]
    rw [dropWhile_stop (fun c hc => hblanks c (List.mem_cons_of_mem _ hc)) hvalue]

/-! ## A file is loaded whole -/

namespace ConfigLine

theorem text_ne_nil (line : ConfigLine) : line.text ≠ [] := by
  unfold text
  split <;> simp

end ConfigLine

theorem configText_cons (line : ConfigLine) (lines : List ConfigLine) :
    configText (line :: lines) = line.text ++ configText lines := List.flatMap_cons

/-- A line that fits is one piece. -/
theorem fgets_text {line : ConfigLine} (h : line.Fits) (rest : List UInt8) :
    fgets configRoom (line.text ++ rest) = (line.text, rest) := by
  have hinner : 10 ∉ line.octets := fun hmem => absurd (h.inner 10 hmem) (by decide)
  have hlength := h.length
  unfold ConfigLine.text at hlength ⊢
  split at hlength
  · rename_i hcr
    rw [if_pos hcr]
    have hread := @fgets_line configRoom (line.octets ++ [13]) rest
      (by simpa using hinner) (by simp at hlength ⊢; omega)
    simpa using hread
  · rename_i hcr
    rw [if_neg hcr]
    have hread := @fgets_line configRoom line.octets rest hinner (by simp at hlength ⊢; omega)
    simpa using hread

theorem configLoop_text {lines : List ConfigLine} (hlines : ∀ line ∈ lines, line.Fits) {passes : ℕ}
    (hpasses : lines.length ≤ passes) (entries : ConfigEntries) :
    configLoop passes entries (configText lines) =
      ((lines.filterMap ConfigLine.assigned).reverse ++ entries, true) := by
  induction lines generalizing passes entries with
  | nil => cases passes <;> rfl
  | cons line lines ih =>
    obtain ⟨passes, rfl⟩ : ∃ passes', passes = passes' + 1 :=
      ⟨passes - 1, by rw [List.length_cons] at hpasses; omega⟩
    have hfits := hlines line List.mem_cons_self
    obtain ⟨c, s, hcons⟩ : ∃ c s, configText (line :: lines) = c :: s := by
      obtain ⟨c, s, hs⟩ := List.exists_cons_of_ne_nil line.text_ne_nil
      exact ⟨c, s ++ configText lines, by rw [configText_cons, hs, List.cons_append]⟩
    rw [hcons, configLoop, ← hcons, configText_cons, fgets_text hfits]
    dsimp only
    rw [configLine_text hfits]
    have hrest := fun entries => ih (fun l hl => hlines l (List.mem_cons_of_mem _ hl))
      (Nat.le_of_succ_le_succ hpasses) entries
    cases hassigned : line.assigned with
    | none => rw [List.filterMap_cons_none hassigned]; exact hrest entries
    | some entry =>
      rw [List.filterMap_cons_some hassigned, List.reverse_cons, List.append_assoc]
      exact hrest (entry :: entries)

theorem length_le_configText (lines : List ConfigLine) :
    lines.length ≤ (configText lines).length := by
  induction lines with
  | nil => exact Nat.zero_le _
  | cons line lines ih =>
    have hline := List.length_pos_iff.2 line.text_ne_nil
    rw [configText_cons, List.length_append, List.length_cons]
    omega

/-- **A file of lines that fit is loaded**, with an entry for each that assigns something. -/
theorem configLoad_text {lines : List ConfigLine} (hlines : ∀ line ∈ lines, line.Fits) :
    configLoad (configText lines) = ((lines.filterMap ConfigLine.assigned).reverse, true) := by
  rw [configLoad, configLoop_text hlines (length_le_configText lines), List.append_nil]

/-- **A key has the value that the last line about it gives it.** -/
theorem configGet_text {lines : List ConfigLine} (hlines : ∀ line ∈ lines, line.Fits)
    (key : List UInt8) : configGet (configLoad (configText lines)).1 key = setting lines key := by
  rw [configLoad_text hlines, configGet, setting, ← List.head?_filter, List.filter_reverse,
    List.head?_reverse, ← List.getLast?_map, List.filter_filterMap, List.map_filterMap]
  rfl

end Sweetspot
