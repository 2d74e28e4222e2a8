import Coppice.Std.Bytes
import Coppice.Std.Text

/-!
# Cache keys of converted books

A converted book is cached under its media id, the time of its file and a digest of the options
(`cache_key` and `options_digest` in `kepub/src/lib.rs`).
-/

namespace Coppice.Kepub

open Coppice.Std List

/-- A text whose length is a `usize`. -/
abbrev SizedString := { text : String // (utf8 text).length < 256 ^ 8 }

abbrev SizedPairs := { pairs : List (SizedString × SizedString) // pairs.length < 256 ^ 8 }

/-- Byte-affecting controls for the transform. -/
structure TransformOptions where
  smartenPunctuation : Bool
  fullscreenReadingFixes : Bool
  hyphenate : Option Bool
  fontSize : Option SizedString
  lineHeight : Option SizedString
  extraCss : SizedPairs
  findReplace : SizedPairs
  charset : Option SizedString
  dummyTitlepage : Option Bool

def hashBool (value : Bool) : List UInt8 := [if value then 1 else 0]

def hashOptionalBool : Option Bool → List UInt8 := optional hashBool

def hashString (value : SizedString) : List UInt8 :=
  le 8 (utf8 value.1).length ++ utf8 value.1

def hashOptionalString : Option SizedString → List UInt8 := optional hashString

def hashPairs (pairs : SizedPairs) : List UInt8 :=
  le 8 pairs.1.length ++ pairs.1.flatMap fun pair => hashString pair.1 ++ hashString pair.2

/-- What is hashed for the digest. -/
def optionsBytes (options : TransformOptions) : List UInt8 :=
  hashBool options.smartenPunctuation ++ hashBool options.fullscreenReadingFixes ++
    hashOptionalBool options.hyphenate ++ hashOptionalString options.fontSize ++
    hashOptionalString options.lineHeight ++ hashPairs options.extraCss ++
    hashPairs options.findReplace ++ hashOptionalString options.charset ++
    hashOptionalBool options.dummyTitlepage

/-- The format `02x`. -/
def hexByte (byte : UInt8) : List Char :=
  [Nat.digitChar (byte.toNat / 16), Nat.digitChar (byte.toNat % 16)]

section Key

variable (sha256 : List UInt8 → List UInt8)

def optionsDigest (options : TransformOptions) : String :=
  .ofList (((sha256 (optionsBytes options)).take 8).flatMap hexByte)

def cacheFileName (mediaId : String) (fileMtime : Nat) (options : TransformOptions) : String :=
  mediaId ++ "-" ++ fileMtime.repr ++ "-" ++ optionsDigest sha256 options ++ "." ++ "kepub.epub"

def cacheKey : String → Nat → TransformOptions → String := cacheFileName sha256

end Key

theorem separates_hashBool : Separates hashBool := by
  intro value other rest rest' same
  obtain ⟨mark, rfl⟩ := List.cons.inj same
  exact ⟨by revert mark; cases value <;> cases other <;> decide, rfl⟩

theorem separates_hashString : Separates hashString := by
  rintro ⟨value, fits⟩ ⟨other, fits'⟩ rest rest' same
  rw [hashString, hashString, append_assoc, append_assoc] at same
  obtain ⟨length, same⟩ := le_append_inj fits fits' same
  obtain ⟨bytes, same⟩ := append_inj same length
  have text : value = other := by
    rw [← Option.some_inj, ← fromUtf8_utf8, ← fromUtf8_utf8, bytes]
  exact ⟨Subtype.ext text, same⟩

theorem separates_hashPairs : Separates hashPairs := by
  rintro ⟨pairs, fits⟩ ⟨others, fits'⟩ rest rest' same
  rw [hashPairs, hashPairs, append_assoc, append_assoc] at same
  obtain ⟨count, same⟩ := le_append_inj fits fits' same
  obtain ⟨pairs, same⟩ := (separates_hashString.pair separates_hashString).flatMap count same
  exact ⟨Subtype.ext pairs, same⟩

theorem separates_optionsBytes : Separates optionsBytes := by
  intro options other rest rest' same
  simp only [optionsBytes, append_assoc] at same
  obtain ⟨smarten, same⟩ := separates_hashBool same
  obtain ⟨fullscreen, same⟩ := separates_hashBool same
  obtain ⟨hyphenate, same⟩ := separates_hashBool.optional same
  obtain ⟨fontSize, same⟩ := separates_hashString.optional same
  obtain ⟨lineHeight, same⟩ := separates_hashString.optional same
  obtain ⟨extraCss, same⟩ := separates_hashPairs same
  obtain ⟨findReplace, same⟩ := separates_hashPairs same
  obtain ⟨charset, same⟩ := separates_hashString.optional same
  obtain ⟨titlepage, rests⟩ := separates_hashBool.optional same
  cases options
  cases other
  exact ⟨by simp_all, rests⟩

theorem dash_notMem_optionsDigest (sha256 : List UInt8 → List UInt8) (options : TransformOptions) :
    '-' ∉ (optionsDigest sha256 options).toList := by
  have digits : ∀ value < 16, '-' ≠ Nat.digitChar value := by decide
  intro member
  rw [optionsDigest, String.toList_ofList] at member
  obtain ⟨byte, -, member⟩ := mem_flatMap.1 member
  have small := byte.toNat_lt
  rcases mem_cons.1 member with high | low
  · exact digits _ (by omega) high
  · exact digits _ (by omega) (mem_singleton.1 low)

theorem separates_hexByte : Separates hexByte := by
  have digits : ∀ value < 16, ∀ other < 16,
      Nat.digitChar value = Nat.digitChar other → value = other := by decide
  intro byte other rest rest' same
  obtain ⟨high, same⟩ := List.cons.inj same
  obtain ⟨low, rests⟩ := List.cons.inj same
  have small := byte.toNat_lt
  have small' := other.toNat_lt
  have high := digits _ (by omega) _ (by omega) high
  have low := digits _ (by omega) _ (by omega) low
  exact ⟨UInt8.toNat_inj.1 (by omega), rests⟩

/-- The digest shows the bytes of the hash it is made of. -/
theorem optionsDigest_eq_iff (sha256 : List UInt8 → List UInt8) (options other : TransformOptions) :
    optionsDigest sha256 options = optionsDigest sha256 other ↔
      (sha256 (optionsBytes options)).take 8 = (sha256 (optionsBytes other)).take 8 := by
  constructor
  · intro same
    have chars := String.ofList_injective same
    have count := congrArg length chars
    have pairs (bytes : List UInt8) : (bytes.flatMap hexByte).length = bytes.length * 2 := by
      simp [length_flatMap, hexByte]
    rw [pairs, pairs] at count
    exact (separates_hexByte.flatMap (by omega) (congrArg (· ++ []) chars)).1
  · intro same
    rw [optionsDigest, same]
    rfl

/-- The key without its extension, between the dashes. -/
theorem splitOn_dash {media time digest : List Char} (plain : '-' ∉ time) (plain' : '-' ∉ digest) :
    (media ++ ['-'] ++ time ++ ['-'] ++ digest).splitOn '-' =
      media.splitOn '-' ++ [time, digest] := by
  rw [append_assoc (media ++ ['-'] ++ time), append_assoc _ time, append_assoc media]
  simp [splitOn_append_cons_self, splitOn_eq_singleton plain, splitOn_eq_singleton plain']

/-- The options can be told from what is hashed, the hashed bytes that the digest shows from the
digest, and media id, time and digest from the key. -/
theorem cacheKey_injective (sha256 : List UInt8 → List UInt8) :
    Function.Injective optionsBytes ∧
      (∀ options options', optionsDigest sha256 options = optionsDigest sha256 options' ↔
        (sha256 (optionsBytes options)).take 8 = (sha256 (optionsBytes options')).take 8) ∧
      ∀ mediaId fileMtime options mediaId' fileMtime' options',
      cacheKey sha256 mediaId fileMtime options = cacheKey sha256 mediaId' fileMtime' options' ↔
        mediaId = mediaId' ∧ fileMtime = fileMtime' ∧
          optionsDigest sha256 options = optionsDigest sha256 options' := by
  refine ⟨fun options other same => (separates_optionsBytes (congrArg (· ++ []) same)).1,
    optionsDigest_eq_iff sha256, ?_⟩
  intro mediaId fileMtime options mediaId' fileMtime' options'
  constructor
  · intro same
    have plain : ∀ time, '-' ∉ Nat.toDigits 10 time := notMem_toDigits rfl
    have dash := dash_notMem_optionsDigest sha256
    have chars := congrArg String.toList same
    simp only [cacheKey, cacheFileName, String.toList_append, Nat.repr,
      String.toList_ofList] at chars
    have pieces := congrArg (splitOn '-') (append_cancel_right (append_cancel_right chars))
    rw [show "-".toList = ['-'] from rfl, splitOn_dash (plain _) (dash _),
      splitOn_dash (plain _) (dash _)] at pieces
    obtain ⟨media, rest⟩ := append_inj' pieces rfl
    have ids := congrArg (intercalate ['-']) media
    rw [intercalate_splitOn, intercalate_splitOn, String.toList_inj] at ids
    have times := congrArg (Nat.ofDigitChars 10 · 0) (List.cons.inj rest).1
    rw [Nat.ofDigitChars_ten_toDigits, Nat.ofDigitChars_ten_toDigits] at times
    have digests := (List.cons.inj (List.cons.inj rest).2).1
    exact ⟨ids, times, String.toList_inj.1 digests⟩
  · rintro ⟨rfl, rfl, digest⟩
    rw [cacheKey, cacheFileName, digest]
    rfl

end Coppice.Kepub
