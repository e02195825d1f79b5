import Mathlib.Data.List.Basic
import Mathlib.Data.List.TakeWhile
import Mathlib.Data.Nat.Notation
import Mathlib.Tactic.Common
import Mathlib.Tactic.IntervalCases
import Sweetspot.Lib.CInt

/-!
# Numbers and addresses in C strings

How the C library reads numbers and addresses of the Internet out of a string, and how it writes
them.  A string is the list of its octets without the NUL.

* `strtol`, `atoi`: the number at the start of a string, with what does not fit cut down.
* `numeral`, `signedNumeral`: a number in decimal, as `printf` writes it; `strtol_numeral`.
* `inetAddr`, `inetNtoa`: an address in host order out of a string, and its four numbers with dots;
  `inetAton_inetNtoa`.
* `ofOctets`, `toOctets`: a C string as a `String` of one character for each octet.
* `tokens`, `toLower`: the words of a string between delimiters, and a letter in lower case.
-/

namespace CText

/-! ## Reading -/

/-- `isspace` of the C locale. -/
def isSpace (c : UInt8) : Bool := c = 32 || (9 ≤ c && c ≤ 13)

/-- The value of a digit or a letter. -/
def digitValue (c : UInt8) : Option ℕ :=
  if 48 ≤ c ∧ c ≤ 57 then some (c.toNat - 48)
  else if 65 ≤ c ∧ c ≤ 90 then some (c.toNat - 55)
  else if 97 ≤ c ∧ c ≤ 122 then some (c.toNat - 87)
  else none

/-- The value of a digit of the base. -/
def digitIn (base : ℕ) (c : UInt8) : Option ℕ := (digitValue c).filter (· < base)

/-- The number that goes on with the digits at the start of a string, and the rest of it. -/
def readDigits (base : ℕ) : ℕ → List UInt8 → ℕ × List UInt8
  | acc, [] => (acc, [])
  | acc, c :: s =>
    match digitIn base c with
    | some d => readDigits base (base * acc + d) s
    | none => (acc, c :: s)

/-- `strtol` to the base of 10, which `atol` and `atoll` are: blanks, a sign and digits.  What does
not fit in 64 bits is cut down. -/
def strtol (s : List UInt8) : ℤ :=
  let s := s.dropWhile isSpace
  let digits := if s.head? = some 45 ∨ s.head? = some 43 then s.tail else s
  let n : ℤ := (readDigits 10 0 digits).1
  if s.head? = some 45 then max (-n) (-0x8000000000000000) else min n 0x7fffffffffffffff

/-- `atoi`. -/
def atoi (s : List UInt8) : ℤ := Sweetspot.int32 (strtol s)

/-- `strtoul` to the base of 0 of a string that starts with a digit. -/
def readUnsigned (s : List UInt8) : ℕ × List UInt8 :=
  if s.head? = some 48 then
    if (s[1]? = some 120 ∨ s[1]? = some 88) ∧ (s[2]?.bind (digitIn 16)).isSome then
      readDigits 16 0 (s.drop 2)
    else readDigits 8 0 s
  else readDigits 10 0 s

/-- The numbers of an address, with so many dots allowed before the last, and the rest of the
string. -/
def inetParts : ℕ → List UInt8 → Option (List ℕ × List UInt8)
  | dots, s =>
    if (s.head?.bind (digitIn 10)).isSome then
      let (n, rest) := readUnsigned s
      if n > 0xffffffff then none
      else if rest.head? = some 46 then
        match dots with
        | 0 => none
        | dots + 1 =>
          if n > 0xff then none
          else (inetParts dots rest.tail).map fun (parts, rest) => (n :: parts, rest)
      else some ([n], rest)
    else none

/-- The address of the numbers: all but the last are octets, and the last is what is left. -/
def ofParts : ℕ → List ℕ → Option ℕ
  | _, [] => none
  | octets, [n] => if n < 0x100 ^ octets then some n else none
  | octets, n :: parts => (ofParts (octets - 1) parts).map fun m => n * 0x100 ^ (octets - 1) + m

/-- `inet_aton`: the numbers may be followed by a blank and anything. -/
def inetAton (s : List UInt8) : Option ℕ :=
  match inetParts 3 s with
  | none => none
  | some (parts, rest) => if rest.head?.all isSpace then ofParts 4 parts else none

/-- `inet_addr`, in host order. -/
def inetAddr (s : List UInt8) : UInt32 := UInt32.ofNat ((inetAton s).getD 0xffffffff)

/-- The strings that `strtok` finds one after the other. -/
def tokens (isDelimiter : UInt8 → Bool) (s : List UInt8) : List (List UInt8) :=
  (s.splitOnP isDelimiter).filter (· ≠ [])

/-- `tolower` of the C locale; `strcasecmp` compares with it. -/
def toLower (c : UInt8) : UInt8 := if 65 ≤ c ∧ c ≤ 90 then c + 32 else c

/-! ## Writing -/

/-- `%u` and the like. -/
def numeral (n : ℕ) : List UInt8 := (Nat.toDigits 10 n).map fun c => UInt8.ofNat c.toNat

/-- `%d`. -/
def signedNumeral (z : ℤ) : List UInt8 :=
  if z < 0 then 45 :: numeral z.natAbs else numeral z.natAbs

/-- `inet_ntoa`, from host order. -/
def inetNtoa (ip : UInt32) : List UInt8 :=
  numeral (ip.toNat / 0x1000000) ++ 46 :: (numeral (ip.toNat / 0x10000 % 0x100) ++
    46 :: (numeral (ip.toNat / 0x100 % 0x100) ++ 46 :: numeral (ip.toNat % 0x100)))

/-! ## Up to where a string goes -/

section Stops

variable {p : UInt8 → Bool} {s tail : List UInt8} (hs : ∀ c ∈ s, p c = true)
  (htail : tail.head?.all fun c => !p c)
include hs htail

theorem takeWhile_stop : (s ++ tail).takeWhile p = s := by
  rw [List.takeWhile_append_of_pos hs]
  cases tail with
  | nil => rw [List.takeWhile_nil, List.append_nil]
  | cons c tail => rw [List.takeWhile_cons_of_neg (by simpa using htail), List.append_nil]

theorem dropWhile_stop : (s ++ tail).dropWhile p = tail := by
  rw [List.dropWhile_append_of_pos hs]
  cases tail with
  | nil => rfl
  | cons c tail => exact List.dropWhile_cons_of_neg (by simpa using htail)

end Stops

/-! ## Numerals are read back -/

/-- There are 256 octets. -/
theorem forall_octet {P : UInt8 → Prop} (h : ∀ n < 0x100, P (UInt8.ofNat n)) (c : UInt8) : P c := by
  have hc := h c.toNat c.toNat_lt
  rwa [UInt8.ofNat_toNat] at hc

/-- The octet of a decimal digit, and its value. -/
theorem digitIn_ten_of_isDigit {c : Char} (h : c.isDigit = true) :
    digitIn 10 (UInt8.ofNat c.toNat) = some (c.toNat - 48) := by
  obtain ⟨hlow, hhigh⟩ : 48 ≤ c.toNat ∧ c.toNat ≤ 57 := Char.isDigit_iff_toNat.1 h
  obtain ⟨n, hn⟩ : ∃ n, c.toNat = n := ⟨_, rfl⟩
  rw [hn] at hlow hhigh ⊢
  interval_cases n <;> rfl

theorem readDigits_digits {l : List Char} (h : ∀ c ∈ l, c.isDigit = true) (acc : ℕ)
    {rest : List UInt8} (hrest : rest.head?.bind (digitIn 10) = none) :
    readDigits 10 acc (l.map (fun c => UInt8.ofNat c.toNat) ++ rest) =
      (Nat.ofDigitChars 10 l acc, rest) := by
  induction l generalizing acc with
  | nil =>
    cases rest with
    | nil => rfl
    | cons c rest =>
      have hc : digitIn 10 c = none := hrest
      rw [List.map_nil, List.nil_append, readDigits, hc, Nat.ofDigitChars_nil]
  | cons c l ih =>
    rw [List.map_cons, List.cons_append, readDigits,
      digitIn_ten_of_isDigit (h c List.mem_cons_self), Nat.ofDigitChars_cons]
    exact ih (fun c hc => h c (List.mem_cons_of_mem _ hc)) _

/-- A numeral is read as its number, up to what is no digit. -/
theorem readDigits_numeral (n : ℕ) {rest : List UInt8}
    (hrest : rest.head?.bind (digitIn 10) = none) :
    readDigits 10 0 (numeral n ++ rest) = (n, rest) := by
  rw [numeral, readDigits_digits
    (fun c hc => Nat.isDigit_of_mem_toDigits (by decide) (by decide) hc) 0 hrest,
    Nat.ofDigitChars_ten_toDigits]

theorem numeral_ne_nil (n : ℕ) : numeral n ≠ [] := by
  simp [numeral]

/-- Every octet of a numeral is a digit. -/
theorem digitIn_of_mem_numeral {n : ℕ} {c : UInt8} (h : c ∈ numeral n) :
    (digitIn 10 c).isSome := by
  obtain ⟨d, hd, rfl⟩ := List.mem_map.1 h
  rw [digitIn_ten_of_isDigit (Nat.isDigit_of_mem_toDigits (by decide) (by decide) hd)]
  rfl

/-- So it is neither a blank nor a sign, and a numeral has no NUL. -/
theorem ne_of_mem_numeral {n : ℕ} {c d : UInt8} (h : c ∈ numeral n) (hd : digitIn 10 d = none) :
    c ≠ d := by
  rintro rfl
  have hdigit := digitIn_of_mem_numeral h
  rw [hd] at hdigit
  cases hdigit

theorem nul_notMem_numeral (n : ℕ) : 0 ∉ numeral n := fun h => ne_of_mem_numeral h (by rfl) rfl

/-- A digit is no blank. -/
theorem isSpace_of_digitIn (c : UInt8) : (digitIn 10 c).isSome → isSpace c = false := by
  refine forall_octet (P := fun c => (digitIn 10 c).isSome → isSpace c = false) ?_ c
  decide +kernel

/-- **A number that was written is read back**, if it fits. -/
theorem strtol_numeral {n : ℕ} (hn : n < 0x8000000000000000) : strtol (numeral n) = n := by
  have hread := @readDigits_numeral n [] rfl
  rw [List.append_nil] at hread
  cases hs : numeral n with
  | nil => exact absurd hs (numeral_ne_nil n)
  | cons c s =>
    have hc : c ∈ numeral n := by rw [hs]; exact List.mem_cons_self
    have hblank := isSpace_of_digitIn c (digitIn_of_mem_numeral hc)
    have hminus : c ≠ 45 := ne_of_mem_numeral hc rfl
    have hplus : c ≠ 43 := ne_of_mem_numeral hc rfl
    have hdrop : (c :: s).dropWhile isSpace = c :: s :=
      List.dropWhile_cons_of_neg (by simp [hblank])
    rw [hs] at hread
    rw [strtol, hdrop]
    simp only [List.head?_cons, Option.some.injEq, hminus, hplus, or_self, if_false, hread]
    omega

/-! ## Addresses are read back -/

/-- A numeral of an octet starts with a zero only if it is zero. -/
theorem head_numeral_of_lt {n : ℕ} (hn : n < 0x100) (hne : n ≠ 0) :
    (numeral n).head? ≠ some 48 := by
  revert n
  decide +kernel

/-- A number of an address is read up to a dot or the end. -/
theorem readUnsigned_numeral {n : ℕ} (hn : n < 0x100) {rest : List UInt8}
    (hrest : rest.head? = none ∨ rest.head? = some 46) :
    readUnsigned (numeral n ++ rest) = (n, rest) := by
  have hstop : rest.head?.bind (digitIn 10) = none := by
    rcases hrest with hrest | hrest <;> rw [hrest] <;> rfl
  by_cases hzero : n = 0
  · subst hzero
    cases rest with
    | nil => rfl
    | cons c rest =>
      obtain rfl : c = 46 := by simpa using hrest
      rfl
  · have hhead : (numeral n ++ rest).head? ≠ some 48 := by
      rw [List.head?_append_of_ne_nil _ (numeral_ne_nil n)]
      exact head_numeral_of_lt hn hzero
    rw [readUnsigned, if_neg hhead, readDigits_numeral n hstop]

theorem head_numeral_append (n : ℕ) (rest : List UInt8) :
    ((numeral n ++ rest).head?.bind (digitIn 10)).isSome := by
  cases hs : numeral n with
  | nil => exact absurd hs (numeral_ne_nil n)
  | cons c s =>
    have hc : c ∈ numeral n := by rw [hs]; exact List.mem_cons_self
    exact digitIn_of_mem_numeral hc

/-- The last number of an address. -/
theorem inetParts_last {n : ℕ} (hn : n < 0x100) (dots : ℕ) :
    inetParts dots (numeral n) = some ([n], []) := by
  have hread := @readUnsigned_numeral _ hn [] (Or.inl rfl)
  have hhead := head_numeral_append n []
  rw [List.append_nil] at hread hhead
  rw [inetParts.eq_def]
  simp only [hhead, if_true, hread]
  rw [if_neg (by omega), if_neg (by simp)]

/-- A number before a dot. -/
theorem inetParts_dot {n : ℕ} (hn : n < 0x100) (dots : ℕ) (s : List UInt8) :
    inetParts (dots + 1) (numeral n ++ 46 :: s) =
      (inetParts dots s).map fun (parts, rest) => (n :: parts, rest) := by
  have hread := @readUnsigned_numeral _ hn (46 :: s) (Or.inr rfl)
  rw [inetParts.eq_def]
  simp only [head_numeral_append, if_true, hread]
  rw [if_neg (by omega), if_pos (by simp), if_neg (by omega)]
  rfl

/-- **An address that was written is read back.** -/
theorem inetAton_inetNtoa (ip : UInt32) : inetAton (inetNtoa ip) = some ip.toNat := by
  have hlt := ip.toNat_lt
  have hparts : inetParts 3 (inetNtoa ip) =
      some ([ip.toNat / 0x1000000, ip.toNat / 0x10000 % 0x100, ip.toNat / 0x100 % 0x100,
        ip.toNat % 0x100], []) := by
    rw [inetNtoa, inetParts_dot (by omega), inetParts_dot (by omega), inetParts_dot (by omega),
      inetParts_last (by omega)]
    rfl
  rw [inetAton, hparts]
  simp only [List.head?_nil, Option.all_none, if_true, ofParts]
  rw [if_pos (by omega), Option.map_some, Option.map_some, Option.map_some]
  congr 1
  omega

theorem inetAddr_inetNtoa (ip : UInt32) : inetAddr (inetNtoa ip) = ip := by
  rw [inetAddr, inetAton_inetNtoa, Option.getD_some, UInt32.ofNat_toNat]

/-! ## No NUL is written -/

theorem nul_notMem_signedNumeral (z : ℤ) : 0 ∉ signedNumeral z := by
  have hdigits := nul_notMem_numeral z.natAbs
  unfold signedNumeral
  split
  · simpa using hdigits
  · exact hdigits

theorem nul_notMem_inetNtoa (ip : UInt32) : 0 ∉ inetNtoa ip := by
  simp [inetNtoa, nul_notMem_numeral]

/-! ## Strings -/

/-- A C string, one character for each octet. -/
def ofOctets (s : List UInt8) : String := String.ofList (s.map fun c => Char.ofNat c.toNat)

/-- The octets of a string, up to a NUL. -/
def toOctets (s : String) : List UInt8 :=
  (s.toList.map fun c => UInt8.ofNat c.toNat).takeWhile (· ≠ 0)

theorem nul_notMem_toOctets (s : String) : 0 ∉ toOctets s := by
  intro h
  simpa using List.mem_takeWhile_imp h

/-- A C string comes back. -/
theorem toOctets_ofOctets {s : List UInt8} (h : 0 ∉ s) : toOctets (ofOctets s) = s := by
  have hmap : (s.map fun c => Char.ofNat c.toNat).map (fun c => UInt8.ofNat c.toNat) = s := by
    rw [List.map_map]
    refine List.map_id'' (forall_octet ?_) s
    decide +kernel
  rw [toOctets, ofOctets, String.toList_ofList, hmap, List.takeWhile_eq_self_iff]
  intro c hc
  have hne : c ≠ 0 := fun hzero => h (hzero ▸ hc)
  simpa using hne

end CText
