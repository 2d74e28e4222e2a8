import Coppice.Kindle.Database
import Coppice.Std.Text

/-!
# Record 0 of a part

The PalmDOC header, the MOBI header and the EXTH block. A field of the MOBI header is read only
if the declared header length covers it; what is absent has a default.
-/

namespace Coppice.Kindle

open Coppice.Std Coppice.Std.Checked

section Text

def encodingCp1252 : Nat := 1252

def encodingUtf8 : Nat := 65001

/-- The 0x80..0x9F block of CP1252, with a replacement for the five unassigned positions. -/
def cp1252High : List Char :=
  ['€', '�', '‚', 'ƒ', '„', '…', '†',
   '‡', 'ˆ', '‰', 'Š', '‹', 'Œ', '�',
   'Ž', '�', '�', '‘', '’', '“', '”',
   '•', '–', '—', '˜', '™', 'š', '›',
   'œ', '�', 'ž', 'Ÿ']

/-- One CP1252 byte. The index into the table carries the proof that it is in range. -/
def decodeCp1252 (byte : UInt8) : Char :=
  if high : 0x80 ≤ byte.toNat ∧ byte.toNat ≤ 0x9F then
    cp1252High.get ⟨byte.toNat - 0x80, by
      have : cp1252High.length = 32 := by decide
      omega⟩
  else Char.ofNat byte.toNat

/-- Whatever is not declared to be UTF-8 is read as CP1252. -/
def decodeText (bytes : List UInt8) (encoding : Nat) : List Char :=
  if encoding = encodingUtf8 then decodeLossy bytes else bytes.map decodeCp1252

end Text

namespace MobiOffset

def compression : Nat := 0
def textLength : Nat := 4
def textRecordCount : Nat := 8
def encryptionType : Nat := 12
def identifier : Nat := 16
def headerLength : Nat := 20
def textEncoding : Nat := 28
def version : Nat := 36
def fullNameOffset : Nat := 84
def fullNameLength : Nat := 88
def firstResource : Nat := 108
def huffRecordOffset : Nat := 112
def huffRecordCount : Nat := 116
def exthFlags : Nat := 128
def fdstRecord : Nat := 192
def extraDataFlags : Nat := 240
def ncxIndex : Nat := 244
def fragmentIndex : Nat := 248
def skeletonIndex : Nat := 252

end MobiOffset

namespace ExthType

def kf8Boundary : Nat := 121
def updatedTitle : Nat := 503
def language : Nat := 524

end ExthType

def kf8Version : Nat := 8

def mobiTag : List UInt8 := ascii "MOBI"

def exthTag : List UInt8 := ascii "EXTH"

section Exth

/-- The `(type, data)` records of an EXTH block, up to its declared count and end. -/
def exthRecords (record0 : List UInt8) (stop : Nat) :
    Nat → Nat → Checked FileError (List (Nat × List UInt8))
  | 0, _ => return []
  | count + 1, cursor => do
      let dataStart ← add cursor 8
      if stop < dataStart then return []
      else
        let recordType := (← beU32 record0 cursor).getD 0
        let length := (← beU32 record0 (← add cursor 4)).getD 0
        if length < 8 then return []
        else
          let next ← add cursor length
          if stop < next then return []
          else
            let data ← slice record0 dataStart next
            return (recordType, data) :: (← exthRecords record0 stop count next)

def parseExth (record0 : List UInt8) (start : Nat) :
    Checked FileError (List (Nat × List UInt8)) := do
  let tagStop ← add start 4
  if get record0 start tagStop ≠ some exthTag then return []
  else
    let blockLength := (← beU32 record0 tagStop).getD 0
    let count := (← beU32 record0 (← add start 8)).getD 0
    let stop := min record0.length (saturatingAdd start (max blockLength 12))
    exthRecords record0 stop count (← add start 12)

variable {record0 : List UInt8}

theorem safe_exthRecords {stop : Nat} (inside : stop ≤ record0.length)
    (held : record0.length < 2 ^ 63) {cursor : Nat} (below : cursor < 2 ^ 63) (count : Nat) :
    Safe (exthRecords record0 stop count cursor) := by
  induction count generalizing cursor with
  | zero => exact nofun
  | succ count ih =>
    rw [exthRecords, add_of_lt (by omega)]
    refine safe_of_returns (returns_ite (fun _ => returns_pure trivial) ?_)
    intro room
    refine (returns_beU32 below).bind fun recordType _ => ?_
    rw [add_of_lt (by omega)]
    refine (returns_beU32 (by omega)).bind fun length read => ?_
    refine returns_ite (fun _ => returns_pure trivial) fun long => ?_
    rw [add_of_lt (by omega)]
    refine returns_ite (fun _ => returns_pure trivial) fun reached => ?_
    refine (returns_slice (by omega) (by omega)).bind fun data _ => ?_
    exact (ih (by omega)).returns.bind fun records _ => returns_pure trivial

theorem safe_parseExth (held : record0.length < 2 ^ 63) {start : Nat} (below : start < 2 ^ 62) :
    Safe (parseExth record0 start) := by
  rw [parseExth, add_of_lt (by omega)]
  refine safe_of_returns (returns_ite (fun _ => returns_pure trivial) ?_)
  intro tagged
  refine (returns_beU32 (by omega)).bind fun blockLength _ => ?_
  rw [add_of_lt (by omega)]
  refine (returns_beU32 (by omega)).bind fun count _ => ?_
  rw [add_of_lt (by omega)]
  exact (safe_exthRecords (Nat.min_le_left _ _) held (by omega) _).returns

end Exth

/-- What the reader needs of record 0 of one part. -/
structure PartHeader where
  compression : Nat
  textLength : Nat
  textRecordCount : Nat
  encryptionType : Nat
  version : Nat := 0
  textEncoding : Nat := encodingCp1252
  fullName : Option String := none
  firstResource : Option Nat := none
  huffRecord : Option Nat := none
  huffCount : Nat := 0
  extraFlags : Nat := 0
  fdstRecord : Option Nat := none
  ncxIndex : Option Nat := none
  fragmentIndex : Option Nat := none
  skeletonIndex : Option Nat := none
  exth : List (Nat × List UInt8) := []

/-- A word of the MOBI header, if the declared length covers it. -/
def field (record0 : List UInt8) (headerEnd offset : Nat) : Checked FileError (Option Nat) :=
  if offset + 4 ≤ headerEnd then beU32 record0 offset else return none

/-- A record pointer of the MOBI header. -/
def pointerField (record0 : List UInt8) (headerEnd offset : Nat) : Checked FileError (Option Nat) :=
  if offset + 4 ≤ headerEnd then recordPointer record0 offset else return none

/-- The pointers only a KF8 header has. -/
def kf8Pointer (record0 : List UInt8) (headerEnd version offset : Nat) :
    Checked FileError (Option Nat) :=
  if kf8Version ≤ version then pointerField record0 headerEnd offset else return none

/-- Bit 6 of the EXTH flags announces a block after the MOBI header. -/
def exthBlock (record0 : List UInt8) (headerEnd exthFlags : Nat) :
    Checked FileError (List (Nat × List UInt8)) :=
  if exthFlags.testBit 6 then parseExth record0 headerEnd else return []

/-- `PartHeader::parse`. -/
def PartHeader.parse (record0 : List UInt8) : Checked FileError PartHeader :=
  if record0.length < 16 then mobiError "record 0 is shorter than a PalmDOC header"
  else do
    let compression := (← beU16 record0 MobiOffset.compression).getD 0
    let textLength := (← beU32 record0 MobiOffset.textLength).getD 0
    let textRecordCount := (← beU16 record0 MobiOffset.textRecordCount).getD 0
    let encryptionType := (← beU16 record0 MobiOffset.encryptionType).getD 0
    -- A `TEXtREAd` database has no MOBI header: the PalmDOC header is all of it.
    if get record0 MobiOffset.identifier (MobiOffset.identifier + 4) ≠ some mobiTag then
      return { compression, textLength, textRecordCount, encryptionType }
    else
      let headerLength := (← beU32 record0 MobiOffset.headerLength).getD 0
      let headerEnd := saturatingAdd MobiOffset.identifier headerLength
      let textEncoding := (← field record0 headerEnd MobiOffset.textEncoding).getD encodingCp1252
      let version := (← field record0 headerEnd MobiOffset.version).getD 0
      let firstResource ← pointerField record0 headerEnd MobiOffset.firstResource
      let huffRecord ← pointerField record0 headerEnd MobiOffset.huffRecordOffset
      let huffCount := (← field record0 headerEnd MobiOffset.huffRecordCount).getD 0
      let extraFlags := (← field record0 headerEnd MobiOffset.extraDataFlags).getD 0
      let ncxIndex ← pointerField record0 headerEnd MobiOffset.ncxIndex
      let fdstRecord ← kf8Pointer record0 headerEnd version MobiOffset.fdstRecord
      let fragmentIndex ← kf8Pointer record0 headerEnd version MobiOffset.fragmentIndex
      let skeletonIndex ← kf8Pointer record0 headerEnd version MobiOffset.skeletonIndex
      let nameOffset := (← field record0 headerEnd MobiOffset.fullNameOffset).getD 0
      let nameLength := (← field record0 headerEnd MobiOffset.fullNameLength).getD 0
      let fullName := ((get record0 nameOffset (saturatingAdd nameOffset nameLength)).map
        fun bytes => String.ofList (decodeText bytes textEncoding)).filter fun name =>
          trim name ≠ ""
      let exthFlags := (← field record0 headerEnd MobiOffset.exthFlags).getD 0
      let exth ← exthBlock record0 headerEnd exthFlags
      return {
        compression, textLength, textRecordCount, encryptionType, version, textEncoding, fullName,
        firstResource, huffRecord := huffRecord.filter (· ≠ 0), huffCount, extraFlags, fdstRecord,
        ncxIndex, fragmentIndex, skeletonIndex, exth }

def PartHeader.exthBytes (header : PartHeader) (recordType : Nat) : Option (List UInt8) :=
  (header.exth.find? fun record => record.1 = recordType).map Prod.snd

def PartHeader.exthString (header : PartHeader) (recordType : Nat) : Option String :=
  ((header.exthBytes recordType).map fun bytes =>
    trim (.ofList (decodeText bytes header.textEncoding))).filter (· ≠ "")

def PartHeader.exthU32 (header : PartHeader) (recordType : Nat) : Option Nat :=
  ((header.exthBytes recordType).bind fun bytes => wordAt 4 bytes 0).filter (· ≠ 2 ^ 32 - 1)

section Bounds

def PointsBelow (pointer : Option Nat) : Prop := ∀ record, pointer = some record → record < 2 ^ 32

/-- Every count and record number of a header comes from a field of at most 32 bits. -/
structure PartHeader.Bounded (header : PartHeader) : Prop where
  textRecordCount : header.textRecordCount < 2 ^ 16
  huffCount : header.huffCount < 2 ^ 32
  firstResource : PointsBelow header.firstResource
  huffRecord : PointsBelow header.huffRecord
  fdstRecord : PointsBelow header.fdstRecord
  ncxIndex : PointsBelow header.ncxIndex
  fragmentIndex : PointsBelow header.fragmentIndex
  skeletonIndex : PointsBelow header.skeletonIndex

theorem pointsBelow_none : PointsBelow none := nofun

theorem PointsBelow.filter {pointer : Option Nat} (below : PointsBelow pointer)
    (keep : Nat → Bool) :
    PointsBelow (pointer.filter keep) :=
  fun record found => below record (Option.eq_some_of_filter_eq_some found)

variable {headerEnd offset : Nat}

theorem returns_field (fits : offset < 2 ^ 63) :
    Returns (field record0 headerEnd offset) fun word => word.getD 0 < 2 ^ 32 := by
  refine returns_ite (fun _ => ?_) fun _ => returns_pure (by decide)
  exact (returns_beU32 fits).mono fun word read => read.2

theorem returns_pointerField (fits : offset < 2 ^ 63) :
    Returns (pointerField record0 headerEnd offset) PointsBelow :=
  returns_ite (fun _ => returns_recordPointer fits) fun _ => returns_pure pointsBelow_none

theorem returns_kf8Pointer {version offset : Nat} (fits : offset < 2 ^ 63) :
    Returns (kf8Pointer record0 headerEnd version offset) PointsBelow :=
  returns_ite (fun _ => returns_pointerField fits) fun _ => returns_pure pointsBelow_none

theorem safe_exthBlock (held : record0.length < 2 ^ 63) (below : headerEnd < 2 ^ 62)
    (exthFlags : Nat) : Safe (exthBlock record0 headerEnd exthFlags) :=
  safe_of_returns (returns_ite (fun _ => (safe_parseExth held below).returns)
    fun _ => returns_pure trivial)

theorem returns_parse (held : record0.length < 2 ^ 63) :
    Returns (PartHeader.parse record0) PartHeader.Bounded := by
  refine returns_ite (fun _ => returns_fail) fun _ => ?_
  refine (returns_beU16 (by decide)).bind fun compression _ => ?_
  refine (returns_beU32 (by decide)).bind fun textLength _ => ?_
  refine (returns_beU16 (by decide)).bind fun textRecordCount counted => ?_
  refine (returns_beU16 (by decide)).bind fun encryptionType _ => ?_
  refine returns_ite (fun _ => returns_pure ?_) fun _ => ?_
  · exact ⟨counted.2, Nat.two_pow_pos 32, nofun, nofun, nofun, nofun, nofun, nofun⟩
  refine (returns_beU32 (by decide)).bind fun headerLength declared => ?_
  refine (returns_field (by decide)).bind fun textEncoding _ => ?_
  refine (returns_field (by decide)).bind fun version _ => ?_
  refine (returns_pointerField (by decide)).bind fun firstResource resource => ?_
  refine (returns_pointerField (by decide)).bind fun huffRecord huff => ?_
  refine (returns_field (by decide)).bind fun huffCount huffs => ?_
  refine (returns_field (by decide)).bind fun extraFlags _ => ?_
  refine (returns_pointerField (by decide)).bind fun ncxIndex ncx => ?_
  refine (returns_kf8Pointer (by decide)).bind fun fdstRecord fdst => ?_
  refine (returns_kf8Pointer (by decide)).bind fun fragmentIndex fragment => ?_
  refine (returns_kf8Pointer (by decide)).bind fun skeletonIndex skeleton => ?_
  refine (returns_field (by decide)).bind fun nameOffset _ => ?_
  refine (returns_field (by decide)).bind fun nameLength _ => ?_
  refine (returns_field (by decide)).bind fun exthFlags _ => ?_
  have headerEnd : saturatingAdd MobiOffset.identifier (headerLength.getD 0) < 2 ^ 62 := by
    have := declared.2
    have : MobiOffset.identifier = 16 := rfl
    unfold saturatingAdd
    omega
  refine (safe_exthBlock held headerEnd _).returns.bind fun exth _ => returns_pure ?_
  exact ⟨counted.2, huffs, resource, huff.filter _, fdst, ncx, fragment, skeleton⟩

end Bounds

end Coppice.Kindle
