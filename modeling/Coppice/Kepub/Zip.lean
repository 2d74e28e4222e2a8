import Coppice.Std.Bytes

/-!
# Reading a ZIP archive

What the ZIP specification asks of a reader: the end record leads to the central directory,
and its headers to the local headers and the data behind them. The largest value of a count,
size or offset field refers to a ZIP64 record, which an archive of this format does not have.
-/

namespace Coppice.Kepub

open Coppice.Std

inductive ZipError where
  | malformed
  | zip64
deriving DecidableEq, Repr

def localHeaderSignature : Nat := 0x04034b50
def centralHeaderSignature : Nat := 0x02014b50
def endOfCentralDirectorySignature : Nat := 0x06054b50

/-- General-purpose flag bit 11: the file name is UTF-8. -/
def utf8Flag : Nat := 2 ^ 11

def localWidths : List Nat := [4, 2, 2, 2, 2, 2, 4, 4, 4, 2, 2]
def centralWidths : List Nat := [4, 2, 2, 2, 2, 2, 2, 4, 4, 4, 2, 2, 2, 2, 2, 4, 4]
def endWidths : List Nat := [4, 2, 2, 2, 2, 4, 4, 2]

/-- The value of a 16-bit field that refers to a ZIP64 record. -/
def reserved16 : Nat := 2 ^ 16 - 1

/-- The value of a 32-bit field that refers to a ZIP64 record. -/
def reserved32 : Nat := 2 ^ 32 - 1

/-- An entry of the central directory. -/
structure Listed where
  flags : Nat
  method : Nat
  crc32 : Nat
  compressedSize : Nat
  uncompressedSize : Nat
  name : List UInt8
  offset : Nat
deriving DecidableEq, Repr

/-- An entry as a reader gives it, with the bytes of the archive it takes up. -/
structure ZipEntry where
  name : String
  method : Nat
  crc32 : Nat
  uncompressedSize : Nat
  compressed : List UInt8
  start : Nat
  stop : Nat
deriving DecidableEq, Repr

/-- The end record. -/
structure EndRecord where
  count : Nat
  centralSize : Nat
  centralStart : Nat
deriving DecidableEq, Repr

/-- An end record that fills the bytes from here, with its comment. -/
def endRecordAt (bytes : List UInt8) : Option EndRecord :=
  match readFields endWidths bytes with
  | some ([signature, disk, centralDisk, diskCount, count, size, start, comment], rest) =>
    if signature = endOfCentralDirectorySignature ∧ disk = 0 ∧ centralDisk = 0 ∧
        diskCount = count ∧ comment = rest.length then some ⟨count, size, start⟩
    else none
  | _ => none

/-- The last end record of the archive. -/
def findEndRecord (bytes : List UInt8) : Option EndRecord :=
  (List.range (bytes.length - 21)).reverse.findSome? fun position =>
    endRecordAt (bytes.drop position)

/-- One header of the central directory, and what follows it. -/
def readCentral (bytes : List UInt8) : Except ZipError (Listed × List UInt8) :=
  match readFields centralWidths bytes with
  | some ([signature, _, _, flags, method, _, _, crc32, compressedSize,
    uncompressedSize, nameLength,
      extraLength, commentLength, _, _, _, offset], rest) =>
      if signature ≠ centralHeaderSignature ∨
          rest.length < nameLength + extraLength + commentLength then .error .malformed
      else if compressedSize = reserved32 ∨ uncompressedSize = reserved32 ∨ offset = reserved32 then
        .error .zip64
      else
        .ok (⟨flags, method, crc32, compressedSize, uncompressedSize, rest.take nameLength, offset⟩,
          rest.drop (nameLength + extraLength + commentLength))
  | _ => .error .malformed

/-- `count` headers in a row. -/
def readDirectory : Nat → List UInt8 → Except ZipError (List Listed × List UInt8)
  | 0, bytes => .ok ([], bytes)
  | count + 1, bytes => do
      let (listed, bytes) ← readCentral bytes
      let (others, rest) ← readDirectory count bytes
      .ok (listed :: others, rest)

/-- A name without the UTF-8 flag is read only if it is ASCII. -/
def decodeName (flags : Nat) (name : List UInt8) : Option String :=
  if flags / utf8Flag % 2 = 1 ∨ name.all (· < 128) then fromUtf8 name else none

/-- The local header an entry leads to agrees with it; its data follows. -/
def readEntry (bytes : List UInt8) (listed : Listed) : Except ZipError ZipEntry :=
  match readFields localWidths (bytes.drop listed.offset), decodeName listed.flags listed.name with
  | some ([signature, _, flags, method, _, _, crc32, compressedSize, uncompressedSize, nameLength,
      extraLength], rest), some name =>
      let data := (rest.drop (nameLength + extraLength)).take compressedSize
      if signature = localHeaderSignature ∧ flags = listed.flags ∧ method = listed.method ∧
          crc32 = listed.crc32 ∧ compressedSize = listed.compressedSize ∧
          uncompressedSize = listed.uncompressedSize ∧ rest.take nameLength = listed.name ∧
          data.length = compressedSize then
        .ok ⟨name, method, crc32, uncompressedSize, data, listed.offset,
          listed.offset + 30 + nameLength + extraLength + compressedSize⟩
      else .error .malformed
  | _, _ => .error .malformed

def readZip (bytes : List UInt8) : Except ZipError (List ZipEntry) :=
  match findEndRecord bytes with
  | none => .error .malformed
  | some last =>
    if last.count = reserved16 ∨ last.centralSize = reserved32 ∨ last.centralStart = reserved32 then
      .error .zip64
    else do
      let directory := (bytes.drop last.centralStart).take last.centralSize
      let (listed, rest) ← readDirectory last.count directory
      if rest = [] then listed.mapM (readEntry bytes) else .error .malformed

end Coppice.Kepub
