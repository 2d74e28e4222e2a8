import Mathlib.Algebra.Order.Ring.Nat
import Mathlib.Data.List.Infix

/-!
# Text primitives

The string operations of the Rust standard library, on the characters of a
Lean string. `trim` follows the Unicode `White_Space` property, which Lean's
own trimming does not.
-/

namespace Coppice.Std

open List

variable {pattern s rest before after : String} {separator : Char}

/-- `char::is_whitespace`: the Unicode `White_Space` property. -/
def isWhitespace (c : Char) : Bool :=
  let n := c.toNat
  (9 ≤ n && n ≤ 13) || n == 0x20 || n == 0x85 || n == 0xA0 || n == 0x1680 ||
    (0x2000 ≤ n && n ≤ 0x200A) || n == 0x2028 || n == 0x2029 || n == 0x202F ||
    n == 0x205F || n == 0x3000

/-- `str::trim`. -/
def trim (s : String) : String :=
  .ofList ((s.toList.dropWhile isWhitespace).reverse.dropWhile isWhitespace).reverse

/-- `str::starts_with` for a literal pattern. -/
def startsWith (pattern s : String) : Bool :=
  pattern.toList.isPrefixOf s.toList

/-- `str::ends_with` for a literal pattern. -/
def endsWith (pattern s : String) : Bool :=
  pattern.toList.isSuffixOf s.toList

/-- `str::trim_end_matches` for a character. -/
def trimEndMatches (c : Char) (s : String) : String :=
  .ofList (s.toList.reverse.dropWhile (· == c)).reverse

/-- What follows `pattern`, when the string starts with it (`str::strip_prefix`). -/
def stripStart (pattern s : String) : Option String :=
  if startsWith pattern s then some (.ofList (s.toList.drop pattern.toList.length)) else none

/-- `str::split_once` at a character: the text before and after its first occurrence. -/
def splitOnce (separator : Char) (s : String) : Option (String × String) :=
  match s.toList.dropWhile (· != separator) with
  | [] => none
  | _ :: after => some (.ofList (s.toList.takeWhile (· != separator)), .ofList after)

/-- `str::split` at a character, on the characters. -/
def splitChars (separator : Char) : List Char → List (List Char)
  | [] => [[]]
  | c :: rest =>
    if c = separator then [] :: splitChars separator rest
    else
      match splitChars separator rest with
      | [] => [[c]]
      | piece :: pieces => (c :: piece) :: pieces

/-- `str::split` at a character. -/
def split (separator : Char) (s : String) : List String :=
  (splitChars separator s.toList).map .ofList

/-- `str::to_ascii_lowercase`. -/
def toAsciiLowercase (s : String) : String :=
  .ofList (s.toList.map Char.toLower)

/-- `str::len`: the number of UTF-8 bytes. -/
def byteLen (s : String) : Nat := s.utf8ByteSize

/-- `str::contains` for a literal pattern. -/
def containsText (pattern s : String) : Bool :=
  pattern.toList <:+: s.toList

/-- `str::parse::<u64>`: decimal digits, with an optional plus sign. -/
def parseU64 (s : String) : Option Nat :=
  let digits := match s.toList with
    | '+' :: rest => rest
    | chars => chars
  if digits ≠ [] ∧ (digits.all Char.isDigit) ∧ Nat.ofDigitChars 10 digits 0 < 2 ^ 64 then
    some (Nat.ofDigitChars 10 digits 0)
  else none

theorem startsWith_append (pattern s : String) : startsWith pattern (pattern ++ s) = true := by
  simp [startsWith, String.toList_append]

/-- A string starting with a pattern is the pattern followed by the rest. -/
theorem eq_append_of_stripStart
    (stripped : stripStart pattern s = some rest) : s = pattern ++ rest := by
  unfold stripStart at stripped
  split at stripped
  · rename_i starts
    obtain rfl := Option.some.inj stripped
    obtain ⟨tail, split⟩ := isPrefixOf_iff_prefix.mp starts
    apply String.ext
    rw [String.toList_append, String.toList_ofList, ← split, drop_left]
  · cases stripped

theorem stripStart_append (pattern s : String) : stripStart pattern (pattern ++ s) = some s := by
  unfold stripStart
  rw [if_pos (startsWith_append pattern s), String.toList_append, drop_left,
    String.ofList_toList]

/-- The two halves and the separator rebuild the string. -/
theorem eq_of_splitOnce
    (split : splitOnce separator s = some (before, after)) :
    s.toList = before.toList ++ separator :: after.toList := by
  unfold splitOnce at split
  have rejoin : s.toList.takeWhile (· != separator) ++ s.toList.dropWhile (· != separator) =
      s.toList := takeWhile_append_dropWhile
  cases back : s.toList.dropWhile (· != separator) with
  | nil => simp [back] at split
  | cons c rest =>
    simp only [back, Option.some.injEq, Prod.mk.injEq] at split
    obtain ⟨rfl, rfl⟩ := split
    have nonempty : s.toList.dropWhile (· != separator) ≠ [] := by simp [back]
    have stops := head_dropWhile_not (· != separator) nonempty
    have same : c = separator := by simpa [back] using stops
    rw [String.toList_ofList, String.toList_ofList]
    rw [back, same] at rejoin
    exact rejoin.symm

/-- Splitting at a separator that does not occur earlier recovers both halves. -/
theorem splitOnce_of_absent (absent : separator ∉ before.toList)
    (shape : s.toList = before.toList ++ separator :: after.toList) :
    splitOnce separator s = some (before, after) := by
  have front : ∀ c ∈ before.toList, (c != separator) = true := by
    intro c member
    simpa using fun same : c = separator => absent (same ▸ member)
  unfold splitOnce
  rw [shape, dropWhile_append_of_pos front, takeWhile_append_of_pos front]
  simp

theorem parseU64_of_digits {chars : List Char} (nonempty : chars ≠ [])
    (digits : ∀ c ∈ chars, c.isDigit = true) (fits : Nat.ofDigitChars 10 chars 0 < 2 ^ 64) :
    parseU64 (.ofList chars) = some (Nat.ofDigitChars 10 chars 0) := by
  unfold parseU64
  rw [String.toList_ofList]
  extract_lets read
  have plain : read = chars := by
    unfold read
    split
    · exact absurd (digits '+' mem_cons_self) (by decide)
    · rfl
  rw [if_pos (plain.symm ▸ ⟨nonempty, all_eq_true.2 digits, fits⟩), plain]

theorem parseU64_repr {n : Nat} (fits : n < 2 ^ 64) : parseU64 n.repr = some n := by
  have value : Nat.ofDigitChars 10 (Nat.toDigits 10 n) 0 = n := Nat.ofDigitChars_ten_toDigits
  have digits : ∀ c ∈ Nat.toDigits 10 n, c.isDigit = true :=
    fun c => Nat.isDigit_of_mem_toDigits (by decide) (by decide)
  have read := parseU64_of_digits Nat.toDigits_ne_nil digits (by rwa [value])
  rwa [value] at read

theorem notMem_toDigits {c : Char} (other : c.isDigit = false) (n : Nat) :
    c ∉ Nat.toDigits 10 n := by
  intro member
  have digit := Nat.isDigit_of_mem_toDigits (by decide) (by decide) member
  rw [other] at digit
  cases digit

theorem splitChars_eq_splitOn (text : List Char) :
    splitChars separator text = text.splitOn separator := by
  induction text with
  | nil => rfl
  | cons c rest ih =>
    rw [splitOn_eq_splitOnP] at ih ⊢
    rw [splitChars, ih, splitOnP_cons_eq_if_modifyHead]
    by_cases same : c = separator
    · simp [same]
    · cases pieces : rest.splitOnP (· == separator) with
      | nil => exact absurd pieces (splitOnP_ne_nil _ _)
      | cons piece pieces => simp [same]

/-- Pieces without the separator are recovered from their join. -/
theorem split_intercalate {pieces : List String} (nonempty : pieces ≠ [])
    (absent : ∀ piece ∈ pieces, separator ∉ piece.toList) :
    split separator ((String.singleton separator).intercalate pieces) = pieces := by
  rw [split, splitChars_eq_splitOn, String.toList_intercalate, String.toList_singleton,
    splitOn_intercalate _ (by simpa using absent) (by simpa using nonempty), map_map]
  simp

end Coppice.Std
