import Coppice.Ingest.Approval
import Coppice.Std.Machine

/-!
# The intake of an ingest store

Uploads and scans of the drop folder stage items, the preprocess hook rewrites them, and they leave
by being discarded, rejected or approved. One call runs at a time.
-/

namespace Coppice.Ingest

open Coppice.Std

section Upload

structure Upload where
  libraryId : String
  relativePath : Option String := none
  filename : String
  bytes : List UInt8
  idempotencyKey : Option String := none
  itemId : String
deriving DecidableEq, Repr

variable [Digest] (config : IngestConfig)

/-- The path an upload is renamed to; its digest is not checked again. -/
def uploadPath (libraryId sha256 filename : String) : Option Path :=
  if isSafeSegment libraryId then (sanitizeFilename filename).map fun name =>
    config.stagingDir ++ [libraryId, sha256 ++ "-" ++ name]
  else none

/-- The stream written to a temporary file and renamed; where a folder stands, it stays. -/
def stageReader (disk : Disk) (target : Path) (bytes : List UInt8) : Option Disk :=
  if isBlocked disk target then none
  else if (disk.tree target).isDir then some disk
  else some (disk.plant target [([], bytes)])

def uploadRow (upload : Upload) (filename : String) (target : Path) : DropItem where
  id := upload.itemId
  libraryId := upload.libraryId
  sourceFilename := filename
  relativePath := upload.relativePath
  byteSize := upload.bytes.length
  sourceSha256 := Digest.sha256 upload.bytes
  stagingPath := target
  idempotencyKey := upload.idempotencyKey

/-- The row an upload meets or creates once its bytes are staged. -/
def recordUpload (upload : Upload) (filename : String) (target : Path) (disk : Disk)
    (items : List DropItem) : Store :=
  match findIdentity items upload.libraryId (Digest.sha256 upload.bytes) filename with
  | some item =>
    if target = item.stagingPath then ⟨disk, items⟩
    else ⟨(removeIfExists disk target).getD disk, items⟩
  | none =>
    match insertItem items (uploadRow upload filename target) with
    | some added => ⟨disk, added⟩
    | none => ⟨(removeIfExists disk target).getD disk, items⟩

def stageUpload (upload : Upload) (store : Store) : Store :=
  match sanitizeFilename upload.filename with
  | none => store
  | some filename =>
    let repeated := store.items.any fun row => row.libraryId = upload.libraryId &&
      upload.idempotencyKey.isSome && row.idempotencyKey = upload.idempotencyKey
    if repeated then store
    else match uploadPath config upload.libraryId (Digest.sha256 upload.bytes) filename with
    | none => store
    | some target =>
      match stageReader store.disk target upload.bytes with
      | none => store
      | some disk => recordUpload upload filename target disk store.items

end Upload

section Scan

variable [Digest] (config : IngestConfig) (libraryId : String)

def scannedRow (file : DropFile) (itemId sha256 : String) (byteSize : Nat) (target : Path) :
    DropItem where
  id := itemId
  libraryId := libraryId
  sourceFilename := file.filename
  relativePath := parentOf file.relativePath
  byteSize := byteSize
  sourceSha256 := sha256
  stagingPath := target

/-- A dropped file staged as one book; without success the scan ends there. -/
def scanFile (file : DropFile) (itemId : String) (store : Store) : Store × Bool :=
  match hashFile (store.disk.tree file.path) with
  | none => (store, false)
  | some (sha256, byteSize) =>
    match findIdentity store.items libraryId sha256 file.filename with
    | some _ =>
      match removeIfExists store.disk file.path with
      | none => (store, false)
      | some disk => ({ store with disk := disk }, true)
    | none =>
      match stagingPath config.stagingDir libraryId sha256 file.filename with
      | none => (store, false)
      | some target =>
        match moveIntoStaging store.disk file.path target with
        | none => (store, false)
        | some disk =>
          match insertItem store.items
              (scannedRow libraryId file itemId sha256 byteSize target) with
          | none => ({ store with disk := disk }, false)
          | some items => (⟨disk, items⟩, true)

/-- What a dropped file turns out to be. -/
inductive Handling where
  | single (itemId : String)
  | unreadable (reason : String) (visit : Visit)
  | delivery (explosion : Explosion)
deriving DecidableEq, Repr

def scanOne (file : DropFile) (store : Store) : Handling → Store × Bool
  | .single itemId => scanFile config libraryId file itemId store
  | .unreadable reason visit =>
    match failDrop libraryId file reason visit store with
    | none => (store, false)
    | some (recorded, _) => (recorded, true)
  | .delivery explosion =>
    let exploded := explodeArchive config libraryId file explosion store
    (exploded.1, exploded.2.isSome)

def scanFiles : Store → List (DropFile × Handling) → Store
  | store, [] => store
  | store, (file, handling) :: rest =>
    let one := scanOne config libraryId file store handling
    if one.2 then scanFiles one.1 rest else one.1

/-- The files below a folder that are not hidden, by their relative paths. -/
def listFiles (disk : Disk) (root : Path) : List DropFile :=
  ((collectFiles (disk.tree root)).mergeSort fun left right =>
    pathText left.1 ≤ pathText right.1).map fun entry =>
      ⟨root ++ entry.1, entry.1, (fileName entry.1).getD "", entry.2.length⟩

def scanDropFolder (handle : DropFile → Handling) (store : Store) : Store :=
  scanFiles config libraryId store
    ((listFiles store.disk (config.dropDir ++ [libraryId])).map fun file => (file, handle file))

end Scan

section Rest

variable [Digest] (config : IngestConfig)

/-- One run of the preprocess hook: how it exits, and what it leaves at the staged path. -/
structure HookRun where
  succeeded : Bool
  left : Disk
  reason : String := ""
deriving DecidableEq, Repr

/-- Another row already has the identity. -/
def identityTaken (items : List DropItem) (item : DropItem) (sha256 : String) : Bool :=
  items.any fun other => other.id ≠ item.id && other.libraryId = item.libraryId &&
    other.sourceSha256 = sha256 && other.sourceFilename = item.sourceFilename

def failedRow (reason : String) (item : DropItem) : DropItem :=
  { item with status := .failed, error := some reason, revision := nextRevision item.revision }

def preprocessedRow (sha256 : String) (byteSize : Nat) (item : DropItem) : DropItem :=
  { item with
    sourceSha256 := sha256
    byteSize := byteSize
    preprocessed := true
    revision := nextRevision item.revision }

def runPreprocess (hook : Option HookRun) (itemId : String) (store : Store) : Store :=
  match (lookup DropItem.id store.items itemId).filter (!·.preprocessed), hook with
  | some item, some run =>
    let disk := store.disk.plant item.stagingPath run.left
    match (hashFile run.left).filter fun _ => run.succeeded with
    | none => ⟨disk, updateAt DropItem.id itemId (failedRow run.reason) store.items⟩
    | some (sha256, byteSize) =>
      if identityTaken store.items item sha256 then { store with disk := disk }
      else ⟨disk, updateAt DropItem.id itemId (preprocessedRow sha256 byteSize) store.items⟩
  | _, _ => store

def discard (itemId : String) (store : Store) : Store :=
  match lookup DropItem.id store.items itemId with
  | none => store
  | some item =>
    ⟨item.sidecarPaths.foldl removeStaged (removeStaged store.disk item.stagingPath),
      store.items.filter (·.id ≠ itemId)⟩

def rejectedRow (reason : Option String) (item : DropItem) : DropItem :=
  { item with status := .rejected, error := reason, revision := nextRevision item.revision }

/-- The staged file or folder of an unresolved item set aside; nothing there is no obstacle. -/
def setAside (disk : Disk) (item : DropItem) : Disk × Bool :=
  let target := config.stagingDir ++ ["rejected", item.id ++ "-" ++ item.sourceFilename]
  let staged := disk.tree item.stagingPath
  if !item.status.isResolved && (staged.isDir || staged.isFile) then
    moveTarget staged.isDir disk item.stagingPath target
  else (disk, true)

def reject (reason : Option String) (itemId : String) (store : Store) : Store :=
  match lookup DropItem.id store.items itemId with
  | none => store
  | some item =>
    let aside := setAside config store.disk item
    if aside.2 then ⟨aside.1, updateAt DropItem.id itemId (rejectedRow reason) store.items⟩
    else { store with disk := aside.1 }

/-- The calls of a store. -/
inductive StoreCall where
  | upload (upload : Upload)
  | scan (libraryId : String) (handle : DropFile → Handling)
  | preprocess (itemId : String) (hook : Option HookRun)
  | discard (itemId : String)
  | reject (itemId : String) (reason : Option String)
  | approve (itemId : String) (expectedRevision : Nat) (libraryRoot : Path)
    (commits : Option String)

/-- One call after the other. -/
def intake : Machine Store StoreCall
  | .upload upload, store => some (stageUpload config upload store)
  | .scan libraryId handle, store => some (scanDropFolder config libraryId handle store)
  | .preprocess itemId hook, store => some (runPreprocess hook itemId store)
  | .discard itemId, store => some (discard itemId store)
  | .reject itemId reason, store => some (reject config reason itemId store)
  | .approve itemId revision libraryRoot commits, store =>
    some (approve libraryRoot commits store itemId revision)

end Rest

end Coppice.Ingest
