import Coppice.Kepub.Zip
import Coppice.Std.Batch

/-!
# The KEPUB archive writer

`ArchiveWriter` of `kepub/src/archive.rs`: local headers and data as the entries are added,
the central directory and the end record on `finish`. Compression and checksums are those of
the deflate library, whatever they are.
-/

namespace Coppice.Kepub

open Coppice.Std List

def versionNeeded : Nat := 20

/-- "Made by" version: Unix host (3) so the external attributes carry a mode. -/
def versionMadeBy : Nat := 3 * 2 ^ 8 + 20

def maxEntrySize : Nat := 2 ^ 32 - 1

inductive KepubError where
  | invalidEpub (message : String)
deriving DecidableEq, Repr

/-- Per-entry metadata carried from the source archive (or defaulted). -/
structure EntryMeta where
  timepart : UInt16
  datepart : UInt16
  unixMode : Option UInt32
deriving DecidableEq, Repr

/-- A deflated payload produced away from the writer. -/
structure Deflated where
  name : String
  info : EntryMeta
  crc32 : UInt32
  uncompressedSize : Nat
  data : List UInt8
deriving DecidableEq, Repr

/-- An entry of the source archive, as its reader gives it. -/
structure SourceEntry where
  name : String
  info : EntryMeta
  method : UInt16
  crc32 : UInt32
  size : Nat
  dataStart : Nat
  compressedSize : Nat
deriving DecidableEq, Repr

structure CentralEntry where
  name : String
  info : EntryMeta
  method : UInt16
  crc32 : UInt32
  compressedSize : Nat
  uncompressedSize : Nat
  localHeaderOffset : Nat
deriving DecidableEq, Repr

structure ArchiveWriter where
  output : List UInt8
  offset : Nat
  entries : List CentralEntry
deriving DecidableEq, Repr

/-- What the deflate library computes. -/
structure Deflater where
  crc32 : List UInt8 → UInt32
  compress : Nat → List UInt8 → Except KepubError (List UInt8)

/-- The arguments of `add_raw`. -/
structure RawEntry where
  name : String
  info : EntryMeta
  method : UInt16
  crc32 : UInt32
  uncompressedSize : Nat
  compressed : List UInt8
deriving DecidableEq, Repr

def storedMethod : UInt16 := 0
def deflatedMethod : UInt16 := 8

/-- The UTF-8 flag is set for names that are not ASCII. -/
def nameFlags (name : String) : Nat := if (utf8 name).all (· < 128) then 0 else utf8Flag

namespace ArchiveWriter

def new : ArchiveWriter := ⟨[], 0, []⟩

/-- The fields of a local header. -/
def localFields (entry : RawEntry) : List (Nat × Nat) :=
  [(4, localHeaderSignature), (2, versionNeeded), (2, nameFlags entry.name),
    (2, entry.method.toNat),
    (2, entry.info.timepart.toNat), (2, entry.info.datepart.toNat), (4, entry.crc32.toNat),
    (4, entry.compressed.length), (4, entry.uncompressedSize),
      (2, (utf8 entry.name).length), (2, 0)]

def addRaw (writer : ArchiveWriter) (entry : RawEntry) : Except KepubError ArchiveWriter :=
  if maxEntrySize < entry.uncompressedSize ∨ maxEntrySize < entry.compressed.length ∨
      maxEntrySize < writer.offset ∨ 2 ^ 16 - 1 < (utf8 entry.name).length then
    .error (.invalidEpub ("entry " ++ entry.name ++ " exceeds the ZIP32 limits"))
  else
    .ok
      { output := writer.output ++ writeFields (localFields entry) ++ utf8 entry.name ++
          entry.compressed
        offset := writer.offset + (30 + (utf8 entry.name).length + entry.compressed.length)
        entries := writer.entries ++
          [⟨entry.name, entry.info, entry.method, entry.crc32, entry.compressed.length % 2 ^ 32,
            entry.uncompressedSize % 2 ^ 32, writer.offset % 2 ^ 32⟩] }

/-- The fields of a header of the central directory. -/
def centralFields (entry : CentralEntry) : List (Nat × Nat) :=
  [(4, centralHeaderSignature), (2, versionMadeBy), (2, versionNeeded), (2, nameFlags entry.name),
    (2, entry.method.toNat), (2, entry.info.timepart.toNat), (2, entry.info.datepart.toNat),
    (4, entry.crc32.toNat), (4, entry.compressedSize), (4, entry.uncompressedSize),
    (2, (utf8 entry.name).length), (2, 0), (2, 0), (2, 0), (2, 0),
    (4, entry.info.unixMode.elim 0 fun mode => mode.toNat * 2 ^ 16), (4, entry.localHeaderOffset)]

def centralRecord (entry : CentralEntry) : List UInt8 :=
  writeFields (centralFields entry) ++ utf8 entry.name

def endFields (count centralSize centralStart : Nat) : List (Nat × Nat) :=
  [(4, endOfCentralDirectorySignature), (2, 0), (2, 0), (2, count), (2, count), (4, centralSize),
    (4, centralStart), (2, 0)]

/-- Write the central directory and return the sink. -/
def finish (writer : ArchiveWriter) : Except KepubError (List UInt8) :=
  if 2 ^ 16 - 1 < writer.entries.length then
    .error (.invalidEpub "archive has more than 65535 entries")
  else
    let central := writer.entries.flatMap centralRecord
    if maxEntrySize < writer.offset ∨ maxEntrySize < central.length then
      .error (.invalidEpub "archive exceeds the ZIP32 limits")
    else
      .ok (writer.output ++ central ++
        writeFields (endFields writer.entries.length central.length writer.offset))

end ArchiveWriter

/-- A call on the writer before `finish`. -/
inductive ArchiveCall where
  | addStored (name : String) (info : EntryMeta) (data : List UInt8)
  | addDeflated (name : String) (info : EntryMeta) (data : List UInt8) (level : Nat)
  | addPrecompressed (entry : Deflated)
  | copyEntry (source : List UInt8) (file : SourceEntry)

namespace ArchiveCall

variable (deflater : Deflater)

def compress (name : String) (info : EntryMeta) (data : List UInt8) (level : Nat) :
    Except KepubError Deflated := do
  let compressed ← deflater.compress level data
  .ok ⟨name, info, deflater.crc32 data, data.length, compressed⟩

def precompressed (entry : Deflated) : RawEntry :=
  ⟨entry.name, entry.info, deflatedMethod, entry.crc32, entry.uncompressedSize, entry.data⟩

/-- The bytes of a source entry, sliced from the source archive. -/
def sourceBytes (source : List UInt8) (file : SourceEntry) : Except KepubError (List UInt8) :=
  if file.dataStart + file.compressedSize ≤ source.length then
    .ok ((source.drop file.dataStart).take file.compressedSize)
  else .error (.invalidEpub ("entry " ++ file.name ++ " points outside the archive"))

/-- The entry a call adds. -/
def entry : ArchiveCall → Except KepubError RawEntry
  | addStored name info data =>
    .ok ⟨name, info, storedMethod, deflater.crc32 data, data.length, data⟩
  | addDeflated name info data level => do
      let deflated ← compress deflater name info data level
      .ok (precompressed deflated)
  | addPrecompressed deflated => .ok (precompressed deflated)
  | copyEntry source file => do
      let compressed ← sourceBytes source file
      .ok ⟨file.name, file.info, file.method, file.crc32, file.size, compressed⟩

def run (writer : ArchiveWriter) (call : ArchiveCall) : Except KepubError ArchiveWriter := do
  let entry ← call.entry deflater
  writer.addRaw entry

end ArchiveCall

variable {entry : RawEntry} {count size start offset : Nat} {at_ : Nat × RawEntry}

section Layout

/-- The entries with the places of their local headers. -/
def placed : Nat → List RawEntry → List (Nat × RawEntry)
  | _, [] => []
  | offset, entry :: entries =>
    (offset, entry) ::
      placed (offset + (30 + (utf8 entry.name).length + entry.compressed.length)) entries

def localRecord (entry : RawEntry) : List UInt8 :=
  writeFields (ArchiveWriter.localFields entry) ++ utf8 entry.name ++ entry.compressed

def centralEntry (at_ : Nat × RawEntry) : CentralEntry :=
  ⟨at_.2.name, at_.2.info, at_.2.method, at_.2.crc32, at_.2.compressed.length % 2 ^ 32,
    at_.2.uncompressedSize % 2 ^ 32, at_.1 % 2 ^ 32⟩

/-- The central directory of the entries. -/
def directory (entries : List RawEntry) : List UInt8 :=
  (placed 0 entries).flatMap fun at_ => ArchiveWriter.centralRecord (centralEntry at_)

/-- The writer after these entries. -/
def ArchiveWriter.after (entries : List RawEntry) : ArchiveWriter :=
  ⟨entries.flatMap localRecord, (entries.flatMap localRecord).length,
    (placed 0 entries).map centralEntry⟩

/-- The checks of `add_raw`. -/
structure Fits (at_ : Nat × RawEntry) : Prop where
  uncompressed : at_.2.uncompressedSize ≤ maxEntrySize
  compressed : at_.2.compressed.length ≤ maxEntrySize
  offset : at_.1 ≤ maxEntrySize
  name : (utf8 at_.2.name).length ≤ 2 ^ 16 - 1

theorem length_localRecord (entry : RawEntry) :
    (localRecord entry).length = 30 + (utf8 entry.name).length + entry.compressed.length := by
  unfold localRecord
  rw [length_append, length_append, length_writeFields]
  rfl

theorem placed_append (entries : List RawEntry) (entry : RawEntry) : ∀ offset,
    placed offset (entries ++ [entry]) =
      placed offset entries ++ [(offset + (entries.flatMap localRecord).length, entry)] := by
  induction entries with
  | nil => intro offset; rfl
  | cons first entries ih =>
    intro offset
    simp only [cons_append, placed, ih, flatMap_cons, length_append,
      length_localRecord, Nat.add_assoc]

theorem length_placed (entries : List RawEntry) : ∀ offset,
    (placed offset entries).length = entries.length := by
  induction entries with
  | nil => intro offset; rfl
  | cons entry entries ih => intro offset; simp [placed, ih]

variable {entries : List RawEntry} {writer : ArchiveWriter}

/-- An entry stands where it is placed. -/
theorem split_of_placed {start : Nat}
    (member : (offset, entry) ∈ placed start entries) :
    ∃ before after, entries = before ++ entry :: after ∧
      offset = start + (before.flatMap localRecord).length := by
  induction entries generalizing start with
  | nil => cases member
  | cons first entries ih =>
    rcases mem_cons.mp member with same | later
    · obtain ⟨rfl, rfl⟩ := Prod.mk.inj same
      exact ⟨[], entries, rfl, rfl⟩
    obtain ⟨before, after, rfl, place⟩ := ih later
    refine ⟨first :: before, after, rfl, ?_⟩
    rw [flatMap_cons, length_append, length_localRecord]
    omega

theorem addRaw_of_fits
    (fits : Fits ((entries.flatMap localRecord).length, entry)) :
    (ArchiveWriter.after entries).addRaw entry = .ok (.after (entries ++ [entry])) := by
  obtain ⟨uncompressed, compressed, offset, name⟩ := fits
  have within : ¬ (maxEntrySize < entry.uncompressedSize ∨ maxEntrySize < entry.compressed.length ∨
      maxEntrySize < (ArchiveWriter.after entries).offset ∨
        2 ^ 16 - 1 < (utf8 entry.name).length) := by
    simp only [not_or, Nat.not_lt]
    exact ⟨uncompressed, compressed, offset, name⟩
  unfold ArchiveWriter.addRaw
  rw [if_neg within]
  unfold ArchiveWriter.after
  rw [placed_append, flatMap_append, length_append]
  simp [localRecord, length_writeFields, ArchiveWriter.localFields, centralEntry, Nat.add_assoc]

theorem addRaw_after
    (added : (ArchiveWriter.after entries).addRaw entry = .ok writer) :
    writer = .after (entries ++ [entry]) ∧ Fits ((entries.flatMap localRecord).length, entry) := by
  have fits : Fits ((entries.flatMap localRecord).length, entry) := by
    unfold ArchiveWriter.addRaw at added
    split at added
    · cases added
    · rename_i within
      simp only [not_or, Nat.not_lt] at within
      exact ⟨within.1, within.2.1, within.2.2.1, within.2.2.2⟩
  rw [addRaw_of_fits fits] at added
  exact ⟨(Except.ok.inj added).symm, fits⟩

/-- What successful calls leave behind. -/
theorem run_after {deflater : Deflater} {calls : List ArchiveCall} :
    ∀ {before : List RawEntry}, (∀ at_ ∈ placed 0 before, Fits at_) →
    calls.foldlM (ArchiveCall.run deflater) (.after before) = .ok writer →
    ∃ added, calls.mapM (ArchiveCall.entry deflater) = .ok added ∧
      writer = .after (before ++ added) ∧ ∀ at_ ∈ placed 0 (before ++ added), Fits at_ := by
  induction calls with
  | nil =>
    intro before fits ran
    obtain rfl := Except.ok.inj ran
    exact ⟨[], rfl, by rw [append_nil], by rwa [append_nil]⟩
  | cons call calls ih =>
    intro before fits ran
    obtain ⟨between, first, rest⟩ := bind_eq_ok.mp ran
    obtain ⟨entry, made, added⟩ := bind_eq_ok.mp first
    obtain ⟨rfl, fit⟩ := addRaw_after added
    have fits' : ∀ at_ ∈ placed 0 (before ++ [entry]), Fits at_ := by
      intro at_ member
      rw [placed_append, mem_append, mem_singleton, Nat.zero_add] at member
      rcases member with old | rfl
      · exact fits at_ old
      · exact fit
    obtain ⟨others, entries, rfl, all⟩ := ih fits' rest
    refine ⟨entry :: others, ?_, by simp, by simpa using all⟩
    rw [mapM_cons, made]
    simp [entries, bind, Except.bind, pure, Except.pure]

end Layout

section Reading

/-- What the central directory says of an entry. -/
def listedEntry (at_ : Nat × RawEntry) : Listed :=
  ⟨nameFlags at_.2.name, at_.2.method.toNat, at_.2.crc32.toNat, at_.2.compressed.length,
    at_.2.uncompressedSize, utf8 at_.2.name, at_.1⟩

/-- What a reader gives for an entry. -/
def zipEntry (at_ : Nat × RawEntry) : ZipEntry :=
  ⟨at_.2.name, at_.2.method.toNat, at_.2.crc32.toNat, at_.2.uncompressedSize,
    at_.2.compressed, at_.1,
    at_.1 + 30 + (utf8 at_.2.name).length + at_.2.compressed.length⟩

/-- No size and no offset of the entry has the reserved value. -/
def EntryUnreserved (at_ : Nat × RawEntry) : Prop :=
  at_.2.compressed.length ≠ reserved32 ∧ at_.2.uncompressedSize ≠ reserved32 ∧ at_.1 ≠ reserved32

/-- No count, size or offset of the archive has the reserved value. -/
structure Unreserved (entries : List RawEntry) : Prop where
  count : entries.length ≠ reserved16
  centralSize : (directory entries).length ≠ reserved32
  centralStart : (entries.flatMap localRecord).length ≠ reserved32
  each : ∀ at_ ∈ placed 0 entries, EntryUnreserved at_

theorem nameFlags_lt (name : String) : nameFlags name < 2 ^ 16 := by
  unfold nameFlags
  split <;> decide

theorem decodeName_flags (name : String) : decodeName (nameFlags name) (utf8 name) = some name := by
  unfold decodeName nameFlags
  by_cases ascii : (utf8 name).all (· < 128)
  · rw [if_pos (.inr ascii)]
    exact fromUtf8_utf8 name
  · rw [if_neg ascii, if_pos (.inl (by decide))]
    exact fromUtf8_utf8 name

/-- The fields of a header of the directory, read back. -/
theorem readFields_central (fits : Fits at_) (rest : List UInt8) :
    readFields centralWidths (ArchiveWriter.centralRecord (centralEntry at_) ++ rest) =
      some ([centralHeaderSignature, versionMadeBy, versionNeeded, nameFlags at_.2.name,
        at_.2.method.toNat, at_.2.info.timepart.toNat, at_.2.info.datepart.toNat, at_.2.crc32.toNat,
        at_.2.compressed.length, at_.2.uncompressedSize, (utf8 at_.2.name).length, 0, 0, 0, 0,
        (at_.2.info.unixMode.elim 0 fun mode => mode.toNat * 2 ^ 16) % 2 ^ 32, at_.1],
        utf8 at_.2.name ++ rest) := by
  obtain ⟨uncompressed, compressed, offset, name⟩ := fits
  unfold maxEntrySize at uncompressed compressed offset
  have flags : nameFlags at_.2.name < 65536 := nameFlags_lt _
  have method : at_.2.method.toNat < 65536 := UInt16.toNat_lt _
  have time : at_.2.info.timepart.toNat < 65536 := UInt16.toNat_lt _
  have date : at_.2.info.datepart.toNat < 65536 := UInt16.toNat_lt _
  have crc32 : at_.2.crc32.toNat < 4294967296 := UInt32.toNat_lt _
  refine (readFields_writeFields (ArchiveWriter.centralFields (centralEntry at_)) _).trans ?_
  simp (disch := omega) only [ArchiveWriter.centralFields, centralEntry, map_cons, map_nil,
    Nat.reducePow, Nat.mod_eq_of_lt]
  rfl

theorem readCentral_record (fits : Fits at_) (rest : List UInt8)
    [Decidable (EntryUnreserved at_)] :
    readCentral (ArchiveWriter.centralRecord (centralEntry at_) ++ rest) =
      if EntryUnreserved at_ then .ok (listedEntry at_, rest) else .error .zip64 := by
  unfold readCentral
  rw [readFields_central fits rest]
  have whole : ¬ (centralHeaderSignature ≠ centralHeaderSignature ∨
      (utf8 at_.2.name ++ rest).length < (utf8 at_.2.name).length + 0 + 0) := by
    simp
  simp only [if_neg whole]
  by_cases unreserved : EntryUnreserved at_
  · rw [if_pos unreserved, if_neg]
    · simp [listedEntry]
    rintro (size | size | place)
    · exact unreserved.1 size
    · exact unreserved.2.1 size
    · exact unreserved.2.2 place
  · rw [if_neg unreserved, if_pos]
    by_contra none
    rw [not_or, not_or] at none
    exact unreserved none

theorem readFields_local (fits : Fits (offset, entry))
    (rest : List UInt8) :
    readFields localWidths (localRecord entry ++ rest) =
      some ([localHeaderSignature, versionNeeded, nameFlags entry.name, entry.method.toNat,
        entry.info.timepart.toNat, entry.info.datepart.toNat, entry.crc32.toNat,
        entry.compressed.length, entry.uncompressedSize, (utf8 entry.name).length, 0],
        utf8 entry.name ++ (entry.compressed ++ rest)) := by
  obtain ⟨uncompressed, compressed, -, name⟩ := fits
  simp only [maxEntrySize] at uncompressed compressed name
  have flags : nameFlags entry.name < 65536 := nameFlags_lt _
  have method : entry.method.toNat < 65536 := UInt16.toNat_lt _
  have time : entry.info.timepart.toNat < 65536 := UInt16.toNat_lt _
  have date : entry.info.datepart.toNat < 65536 := UInt16.toNat_lt _
  have crc32 : entry.crc32.toNat < 4294967296 := UInt32.toNat_lt _
  unfold localRecord
  rw [append_assoc, append_assoc]
  refine (readFields_writeFields (ArchiveWriter.localFields entry) _).trans ?_
  simp (disch := omega) only [ArchiveWriter.localFields, map_cons, map_nil, Nat.reducePow,
    Nat.mod_eq_of_lt]
  rfl

/-- The local header and the data of an entry are where the directory says. -/
theorem readEntry_listed {before after : List UInt8}
    (fits : Fits (before.length, entry)) :
    readEntry (before ++ localRecord entry ++ after) (listedEntry (before.length, entry)) =
      .ok (zipEntry (before.length, entry)) := by
  have here : (before ++ localRecord entry ++ after).drop before.length =
      localRecord entry ++ after := by
    rw [append_assoc, drop_left]
  unfold readEntry
  simp only [listedEntry, here, readFields_local fits after, decodeName_flags]
  simp [zipEntry]

/-- The directory lists the entries in order, unless one of them has a reserved value. -/
theorem readDirectory_records (rest : List UInt8) : ∀ places : List (Nat × RawEntry),
    (∀ at_ ∈ places, Fits at_) →
    ((∀ at_ ∈ places, EntryUnreserved at_) →
      readDirectory places.length
        (places.flatMap (fun at_ => ArchiveWriter.centralRecord (centralEntry at_)) ++ rest) =
        .ok (places.map listedEntry, rest)) ∧
    (¬ (∀ at_ ∈ places, EntryUnreserved at_) →
      readDirectory places.length
        (places.flatMap (fun at_ => ArchiveWriter.centralRecord (centralEntry at_)) ++ rest) =
        .error .zip64)
  | [], _ => ⟨fun _ => rfl, fun reserved => absurd nofun reserved⟩
  | at_ :: places, fits => by
      classical
      have first := readCentral_record (fits at_ mem_cons_self)
        (places.flatMap (fun at_ => ArchiveWriter.centralRecord (centralEntry at_)) ++ rest)
      obtain ⟨listed, refused⟩ := readDirectory_records rest places
        (forall_mem_cons.1 fits).2
      simp only [length_cons, readDirectory, flatMap_cons, append_assoc, first,
        forall_mem_cons]
      by_cases here : EntryUnreserved at_
      · rw [if_pos here]
        constructor
        · intro unreserved
          simp [bind, Except.bind, listed unreserved.2]
        · intro reserved
          have later := refused fun others => reserved ⟨here, others⟩
          simp [bind, Except.bind, later]
      · rw [if_neg here]
        exact ⟨fun unreserved => absurd unreserved.1 here, fun _ => rfl⟩

theorem endRecordAt_fields (counted : count < 2 ^ 16) (sized : size < 2 ^ 32)
    (started : start < 2 ^ 32) :
    endRecordAt (writeFields (ArchiveWriter.endFields count size start)) =
      some ⟨count, size, start⟩ := by
  have fields : readFields endWidths (writeFields (ArchiveWriter.endFields count size start)) =
      some ([endOfCentralDirectorySignature, 0, 0, count, count, size, start, 0], []) := by
    have written := readFields_writeFields (ArchiveWriter.endFields count size start) []
    refine written.trans ?_
    simp only [ArchiveWriter.endFields, map_cons, map_nil, Nat.reducePow, Nat.zero_mod,
      Nat.mod_eq_of_lt (show count < 65536 from counted),
      Nat.mod_eq_of_lt (show size < 4294967296 from sized),
      Nat.mod_eq_of_lt (show start < 4294967296 from started)]
    rfl
  unfold endRecordAt
  rw [fields]
  simp

/-- The end record is the last thing in the archive, so it is found first. -/
theorem findEndRecord_append (before : List UInt8)
    (counted : count < 2 ^ 16) (sized : size < 2 ^ 32) (started : start < 2 ^ 32) :
    findEndRecord (before ++ writeFields (ArchiveWriter.endFields count size start)) =
      some ⟨count, size, start⟩ := by
  have length : (writeFields (ArchiveWriter.endFields count size start)).length = 22 := by
    rfl
  have positions : (before ++ writeFields (ArchiveWriter.endFields count size start)).length - 21 =
      before.length + 1 := by
    rw [length_append, length]
    omega
  unfold findEndRecord
  rw [positions, range_succ, reverse_append, reverse_singleton,
    singleton_append, findSome?_cons, drop_left, endRecordAt_fields counted sized started]

theorem mapM_ok {f : α → Except ε β} {g : α → β} {items : List α}
    (each : ∀ item ∈ items, f item = .ok (g item)) : items.mapM f = .ok (items.map g) := by
  induction items with
  | nil => rfl
  | cons item items ih =>
    rw [mapM_cons, each item mem_cons_self,
      ih fun other member => each other (mem_cons_of_mem _ member)]
    rfl

/-- The archive of the entries. -/
def archive (entries : List RawEntry) : List UInt8 :=
  entries.flatMap localRecord ++ directory entries ++
    writeFields (ArchiveWriter.endFields entries.length (directory entries).length
      (entries.flatMap localRecord).length)

/-- The last checks of `finish`. -/
structure FitsArchive (entries : List RawEntry) : Prop where
  each : ∀ at_ ∈ placed 0 entries, Fits at_
  count : entries.length < 2 ^ 16
  centralSize : (directory entries).length < 2 ^ 32
  centralStart : (entries.flatMap localRecord).length < 2 ^ 32

theorem readZip_archive (fits : FitsArchive entries) :
    (Unreserved entries → readZip (archive entries) = .ok ((placed 0 entries).map zipEntry)) ∧
    (¬ Unreserved entries → readZip (archive entries) = .error .zip64) := by
  have found := findEndRecord_append (entries.flatMap localRecord ++ directory entries)
    fits.count fits.centralSize fits.centralStart
  have central : ((archive entries).drop (entries.flatMap localRecord).length).take
      (directory entries).length = directory entries ++ [] := by
    unfold archive
    rw [append_assoc, drop_left, take_left, append_nil]
  obtain ⟨listed, refused⟩ := readDirectory_records [] (placed 0 entries) fits.each
  rw [length_placed] at listed refused
  have located : ∀ at_ ∈ placed 0 entries,
      readEntry (archive entries) (listedEntry at_) = .ok (zipEntry at_) := by
    rintro ⟨offset, entry⟩ member
    obtain ⟨before, after, split, place⟩ := split_of_placed member
    rw [Nat.zero_add] at place
    subst place
    have shape : archive entries = before.flatMap localRecord ++ localRecord entry ++
        (after.flatMap localRecord ++ directory entries ++
          writeFields (ArchiveWriter.endFields entries.length (directory entries).length
            (entries.flatMap localRecord).length)) := by
      unfold archive
      nth_rewrite 1 [split]
      simp
    rw [shape]
    exact readEntry_listed (fits.each _ member)
  have opened : findEndRecord (archive entries) = some ⟨entries.length, (directory entries).length,
      (entries.flatMap localRecord).length⟩ := found
  unfold readZip
  rw [opened]
  simp only [central]
  constructor
  · rintro ⟨count, centralSize, centralStart, each⟩
    rw [if_neg (by rintro (same | same | same) <;> contradiction)]
    have directoryRead : readDirectory entries.length (directory entries ++ []) = _ := listed each
    rw [directoryRead]
    simp only [bind, Except.bind, if_true]
    rw [mapM_map]
    exact mapM_ok located
  · intro reserved
    split
    · rfl
    rename_i fields
    rw [not_or, not_or] at fields
    have some_ : ¬ ∀ at_ ∈ placed 0 entries, EntryUnreserved at_ :=
      fun each => reserved ⟨fields.1, fields.2.1, fields.2.2, each⟩
    have directoryRead : readDirectory entries.length (directory entries ++ []) = _ := refused some_
    rw [directoryRead]
    rfl

/-- Entries follow one another. -/
theorem placed_pairwise (entries : List RawEntry) : ∀ start,
    (∀ at_ ∈ placed start entries, start ≤ at_.1) ∧
      ((placed start entries).map zipEntry).Pairwise fun left right => left.stop ≤ right.start := by
  induction entries with
  | nil => exact fun start => ⟨nofun, .nil⟩
  | cons entry entries ih =>
    intro start
    obtain ⟨later, ordered⟩ :=
      ih (start + (30 + (utf8 entry.name).length + entry.compressed.length))
    refine ⟨forall_mem_cons.mpr ⟨Nat.le_refl _, fun at_ rest => ?_⟩, .cons ?_ ordered⟩
    · have beyond := later at_ rest
      omega
    intro other member
    obtain ⟨at_, rest, rfl⟩ := mem_map.mp member
    have beyond := later at_ rest
    simp only [zipEntry]
    omega

theorem finish_eq (entries : List RawEntry) :
    (ArchiveWriter.after entries).finish =
      if 2 ^ 16 - 1 < entries.length then
        .error (.invalidEpub "archive has more than 65535 entries")
      else if maxEntrySize < (entries.flatMap localRecord).length ∨
          maxEntrySize < (directory entries).length then
        .error (.invalidEpub "archive exceeds the ZIP32 limits")
      else .ok (archive entries) := by
  have central : (ArchiveWriter.after entries).entries.flatMap ArchiveWriter.centralRecord =
      directory entries := flatMap_map _ _ _
  have count : (ArchiveWriter.after entries).entries.length = entries.length := by
    simp [ArchiveWriter.after, length_placed]
  unfold ArchiveWriter.finish
  rw [central, count]
  rfl

theorem finish_after {bytes : List UInt8} (fits : ∀ at_ ∈ placed 0 entries, Fits at_)
    (finished : (ArchiveWriter.after entries).finish = .ok bytes) :
    bytes = archive entries ∧ FitsArchive entries := by
  rw [finish_eq] at finished
  split at finished
  · cases finished
  split at finished
  · cases finished
  rename_i few within
  obtain rfl := Except.ok.inj finished
  unfold maxEntrySize at within
  exact ⟨rfl, fits, by omega, by omega, by omega⟩

end Reading

section Archives

/-- A reader gives back what was added. -/
structure ZipEntry.Holds (found : ZipEntry) (added : RawEntry) : Prop where
  name : found.name = added.name
  method : found.method = added.method.toNat
  crc32 : found.crc32 = added.crc32.toNat
  uncompressedSize : found.uncompressedSize = added.uncompressedSize
  compressed : found.compressed = added.compressed

/-- For every sequence of calls that all succeed, with a successful `finish`, a reader
recovers exactly the entries added, in order and in ranges that do not overlap, if and only
if no count, size or offset reaches the value that the format reserves. -/
theorem archive_recovered_iff (deflater : Deflater) (calls : List ArchiveCall)
    (writer : ArchiveWriter) (bytes : List UInt8)
    (ran : calls.foldlM (ArchiveCall.run deflater) .new = .ok writer)
    (finished : writer.finish = .ok bytes) :
    ∃ added, calls.mapM (ArchiveCall.entry deflater) = .ok added ∧
      ((∃ found, readZip bytes = .ok found ∧ List.Forall₂ ZipEntry.Holds found added ∧
          found.Pairwise fun left right => left.stop ≤ right.start) ↔
        Unreserved added) := by
  obtain ⟨added, entries, rfl, fits⟩ := @run_after writer deflater calls [] (by simp [placed]) ran
  obtain ⟨rfl, fitsArchive⟩ := finish_after fits finished
  obtain ⟨recovered, refused⟩ := readZip_archive fitsArchive
  refine ⟨added, entries, ?_, ?_⟩
  · rintro ⟨found, read, -⟩
    by_contra reserved
    rw [refused reserved] at read
    cases read
  intro unreserved
  refine ⟨_, recovered unreserved, ?_, (placed_pairwise _ 0).2⟩
  generalize 0 = start
  clear * -
  induction added generalizing start with
  | nil => exact .nil
  | cons entry rest ih => exact .cons ⟨rfl, rfl, rfl, rfl, rfl⟩ (ih _)

/-- A deflate library that stores. -/
def storingDeflater : Deflater := ⟨fun _ => 0, fun _ data => .ok data⟩

/-- An entry without a name and without content. -/
def blankCall : ArchiveCall := .addStored "" ⟨0, 0, none⟩ []

def blankEntry : RawEntry := ⟨"", ⟨0, 0, none⟩, 0, 0, 0, []⟩

/-- A stored and a compressed entry. -/
def sampleCalls : List ArchiveCall :=
  [.addStored "mimetype" ⟨0, 0, none⟩ [97, 98, 99],
    .addDeflated "é.xhtml" ⟨0, 0, none⟩ [60, 112, 47, 62] 6]

def sampleEntries : List RawEntry :=
  [⟨"mimetype", ⟨0, 0, none⟩, storedMethod, 0, 3, [97, 98, 99]⟩,
    ⟨"é.xhtml", ⟨0, 0, none⟩, deflatedMethod, 0, 4, [60, 112, 47, 62]⟩]

theorem archive_recovered_iff_sample :
    Unreserved sampleEntries ∧ ∃ found, readZip (archive sampleEntries) = .ok found ∧
      List.Forall₂ ZipEntry.Holds found sampleEntries ∧
      found.Pairwise fun left right => left.stop ≤ right.start := by
  have unreserved : Unreserved sampleEntries :=
    ⟨by decide, by decide +kernel, by decide +kernel, by unfold EntryUnreserved; decide +kernel⟩
  obtain ⟨added, same, recovered⟩ := archive_recovered_iff storingDeflater sampleCalls
    (.after sampleEntries) (archive sampleEntries) (by decide +kernel) (by decide +kernel)
  obtain rfl : added = sampleEntries := Except.ok.inj same.symm
  exact ⟨unreserved, recovered.mpr unreserved⟩

theorem length_flatMap_const {f : α → List β} {length : Nat} {items : List α}
    (each : ∀ item ∈ items, (f item).length = length) :
    (items.flatMap f).length = length * items.length := by
  induction items with
  | nil => rfl
  | cons item items ih =>
    rw [flatMap_cons, length_append, each item mem_cons_self,
      ih (forall_mem_cons.1 each).2, length_cons,
      Nat.mul_succ, Nat.add_comm]

theorem length_blanks (count : Nat) :
    ((List.replicate count blankEntry).flatMap localRecord).length = 30 * count := by
  have each : ∀ entry ∈ List.replicate count blankEntry, (localRecord entry).length = 30 := by
    intro entry member
    rw [eq_of_mem_replicate member]
    exact length_localRecord blankEntry
  rw [length_flatMap_const each, length_replicate]

theorem length_blank_directory (count : Nat) :
    (directory (List.replicate count blankEntry)).length = 46 * count := by
  have each : ∀ at_ ∈ placed 0 (List.replicate count blankEntry),
      (ArchiveWriter.centralRecord (centralEntry at_)).length = 46 := by
    rintro ⟨offset, entry⟩ member
    obtain ⟨before, after, split, -⟩ := split_of_placed member
    have blank : entry = blankEntry :=
      eq_of_mem_replicate (split ▸ mem_append_right before mem_cons_self)
    simp only [centralEntry, blank]
    rfl
  unfold directory
  rw [length_flatMap_const each, length_placed, length_replicate]

theorem run_blanks {count : Nat} (few : count ≤ 2 ^ 16 - 1) :
    (List.replicate count blankCall).foldlM (ArchiveCall.run storingDeflater) .new =
      .ok (.after (List.replicate count blankEntry)) := by
  induction count with
  | zero => rfl
  | succ count ih =>
    have fits : Fits (((List.replicate count blankEntry).flatMap localRecord).length,
      blankEntry) := by
      refine ⟨?_, ?_, ?_, ?_⟩
      · exact Nat.zero_le _
      · exact Nat.zero_le _
      · simp only [length_blanks, maxEntrySize]
        omega
      · exact Nat.zero_le _
    rw [replicate_succ', foldlM_append, ih (by omega), replicate_succ',
      ← addRaw_of_fits fits]
    simp only [bind, Except.bind, foldlM_cons, foldlM_nil]
    rw [addRaw_of_fits fits]
    have step : ArchiveCall.run storingDeflater
      (.after (List.replicate count blankEntry)) blankCall =
        .ok (.after (List.replicate count blankEntry ++ [blankEntry])) := addRaw_of_fits fits
    rw [step]
    rfl

/-- A full archive of 65535 entries, whose count is the reserved value. -/
theorem full_archive_unreadable :
    ∃ writer bytes, (List.replicate 65535 blankCall).foldlM (ArchiveCall.run storingDeflater) .new =
        .ok writer ∧ writer.finish = .ok bytes ∧ readZip bytes = .error .zip64 := by
  have ran := @run_blanks 65535 (by decide)
  obtain ⟨added, entries, -, fits⟩ :=
    @run_after _ storingDeflater (List.replicate 65535 blankCall) [] (by simp [placed]) ran
  have blanks : (List.replicate 65535 blankCall).mapM (ArchiveCall.entry storingDeflater) =
      .ok (List.replicate 65535 blankEntry) := by
    have each := @mapM_ok _ _ _ (ArchiveCall.entry storingDeflater) (fun _ => blankEntry)
      (List.replicate 65535 blankCall) fun call member => by
        rw [eq_of_mem_replicate member]
        rfl
    rwa [map_replicate] at each
  obtain rfl : added = List.replicate 65535 blankEntry := Except.ok.inj (entries.symm.trans blanks)
  rw [nil_append] at fits
  have finished : (ArchiveWriter.after (List.replicate 65535 blankEntry)).finish =
      .ok (archive (List.replicate 65535 blankEntry)) := by
    rw [finish_eq, length_blanks, length_blank_directory, length_replicate]
    rfl
  refine ⟨_, _, ran, finished, ?_⟩
  refine (readZip_archive (finish_after fits finished).2).2 ?_
  intro unreserved
  exact unreserved.count (by rw [length_replicate]; rfl)

end Archives

end Coppice.Kepub
