import Coppice.Std.Checked
import Coppice.Std.Lossy

/-!
# Palm databases

The envelope of a Kindle book: a header, a list of record offsets, and the records they
delimit. A record number past the table gives an empty record, and a decreasing pair of
offsets an empty one too.
-/

namespace Coppice.Kindle

open Coppice.Std Coppice.Std.Checked List

inductive FileError where
  | mobiReadError (message : String)
  | drmProtected (reason : String)
deriving DecidableEq, Repr

def mobiError (message : String) : Checked FileError α := fail (.mobiReadError message)

/-- A byte string literal. -/
def ascii (text : String) : List UInt8 := text.toList.map fun c => UInt8.ofNat c.toNat

section Words

/-- Bytes as a number, the most significant first. -/
def ofBe (bytes : List UInt8) : Nat := bytes.foldl (fun value byte => value * 256 + byte.toNat) 0

/-- The word of the given width at an offset, if the bytes reach that far. -/
def wordAt (width : Nat) (bytes : List UInt8) (offset : Nat) : Option Nat :=
  (get bytes offset (offset + width)).map ofBe

/-- `slice::get` of a word: the end of the range is computed in machine words. -/
def beWord (width : Nat) (bytes : List UInt8) (offset : Nat) : Checked FileError (Option Nat) := do
  let stop ← add offset width
  return (get bytes offset stop).map ofBe

def beU16 (bytes : List UInt8) (offset : Nat) : Checked FileError (Option Nat) :=
  beWord 2 bytes offset

def beU32 (bytes : List UInt8) (offset : Nat) : Checked FileError (Option Nat) :=
  beWord 4 bytes offset

/-- A pointer of all ones is an absent record. -/
def recordPointer (bytes : List UInt8) (offset : Nat) : Checked FileError (Option Nat) := do
  return (← beU32 bytes offset).filter (· ≠ 2 ^ 32 - 1)

theorem ofBe_lt (bytes : List UInt8) : ofBe bytes < 256 ^ bytes.length := by
  suffices general : ∀ (bytes : List UInt8) (value bound : Nat), value < bound →
      bytes.foldl (fun value byte => value * 256 + byte.toNat) value <
        bound * 256 ^ bytes.length by
    have whole := general bytes 0 1 (by decide)
    rwa [Nat.one_mul] at whole
  intro bytes
  induction bytes with
  | nil => simp
  | cons byte bytes ih =>
    intro value bound below
    have next := ih (value * 256 + byte.toNat) (bound * 256) (by
      have := byte.toNat_lt
      omega)
    rwa [length_cons, Nat.pow_succ', ← Nat.mul_assoc]

variable {bytes : List UInt8} {offset width : Nat}

theorem beWord_eq (fits : offset + width < 2 ^ 64) :
    beWord width bytes offset = .ok (wordAt width bytes offset) := by
  rw [beWord, add_of_lt fits]
  rfl

theorem wordAt_lt {word : Nat} (found : wordAt width bytes offset = some word) :
    word < 256 ^ width := by
  obtain ⟨part, taken, rfl⟩ := Option.map_eq_some_iff.1 found
  have lengths := length_of_get taken
  rw [Nat.add_sub_cancel_left] at lengths
  exact lengths ▸ ofBe_lt part

theorem getD_wordAt_lt (width offset : Nat) (bytes : List UInt8) :
    (wordAt width bytes offset).getD 0 < 256 ^ width := by
  cases found : wordAt width bytes offset with
  | none => exact Nat.pos_of_ne_zero (by simp)
  | some word => exact wordAt_lt found

variable (fits : offset < 2 ^ 63)
include fits

theorem returns_beU16 :
    Returns (beU16 bytes offset) fun word => word = wordAt 2 bytes offset ∧
      word.getD 0 < 2 ^ 16 := by
  rw [beU16, beWord_eq (by omega)]
  exact returns_ok ⟨rfl, getD_wordAt_lt 2 offset bytes⟩

theorem returns_beU32 :
    Returns (beU32 bytes offset) fun word => word = wordAt 4 bytes offset ∧
      word.getD 0 < 2 ^ 32 := by
  rw [beU32, beWord_eq (by omega)]
  exact returns_ok ⟨rfl, getD_wordAt_lt 4 offset bytes⟩

theorem returns_recordPointer :
    Returns (recordPointer bytes offset) fun word => ∀ record, word = some record →
      record < 2 ^ 32 := by
  refine (returns_beU32 fits).bind ?_
  rintro _ ⟨rfl, -⟩
  refine returns_pure fun record found => ?_
  exact wordAt_lt (Option.eq_some_of_filter_eq_some found)

end Words

section Envelope

def pdbHeaderLen : Nat := 78

def pdbRecordEntryLen : Nat := 8

def bookmobi : List UInt8 := ascii "BOOKMOBI"

def textread : List UInt8 := ascii "TEXtREAd"

def maxRecords : Nat := 2 ^ 16 - 1

/-- The bytes of a file; a slice has at most `isize::MAX` of them. -/
structure Image where
  data : List UInt8
  held : data.length < 2 ^ 63

/-- The records of a database, as they are read from its file. -/
structure PalmDatabase where
  records : List (List UInt8)
  name : String
  held : ∀ record ∈ records, record.length < 2 ^ 63
  counted : records.length ≤ maxRecords

/-- The offset of a record, at most the length of the file. -/
def recordOffset (list : List UInt8) (total index : Nat) : Nat :=
  min ((wordAt 4 list (index * pdbRecordEntryLen)).getD 0) total

/-- A record runs to the offset of the next, the last one to the end of the file. -/
def recordBytes (file list : List UInt8) (count index : Nat) : List UInt8 :=
  let start := recordOffset list file.length index
  let stop := if index + 1 < count then recordOffset list file.length (index + 1) else file.length
  (file.drop start).take (stop - start)

/-- `PalmDatabase::open`. -/
def PalmDatabase.openFile (file : Image) : Checked FileError PalmDatabase :=
  let header := file.data.take pdbHeaderLen
  let kind := (header.drop 60).take 8
  let count := (wordAt 2 header 76).getD 0
  let list := (file.data.drop pdbHeaderLen).take (count * pdbRecordEntryLen)
  if file.data.length < pdbHeaderLen then mobiError "file is shorter than a PDB header"
  else if kind ≠ bookmobi ∧ kind ≠ textread then
    mobiError ("not a Mobipocket database: type/creator is \"" ++
      .ofList (decodeLossy kind) ++ "\"")
  else if count = 0 ∨ maxRecords < count then
    mobiError ("database declares " ++ count.repr ++ " records")
  else if list.length < count * pdbRecordEntryLen then
    mobiError "record info list is truncated"
  else .ok {
    records := (range count).map (recordBytes file.data list count)
    name := .ofList (decodeLossy ((header.take 32).takeWhile (· ≠ 0)))
    held := by
      intro record member
      obtain ⟨index, -, rfl⟩ := mem_map.1 member
      have := file.held
      simp only [recordBytes, length_take, length_drop]
      omega
    counted := by
      have := getD_wordAt_lt 2 76 header
      rw [length_map, length_range, maxRecords]
      omega }

/-- `PalmDatabase::record`: a number past the table gives no bytes. -/
def PalmDatabase.record (db : PalmDatabase) (index : Nat) : List UInt8 := db.records.getD index []

theorem PalmDatabase.record_held (db : PalmDatabase) (index : Nat) :
    (db.record index).length < 2 ^ 63 := by
  rw [record, getD_eq_getElem?_getD]
  cases found : db.records[index]? with
  | none => simp
  | some bytes => exact db.held bytes (mem_of_getElem? found)

end Envelope

end Coppice.Kindle
