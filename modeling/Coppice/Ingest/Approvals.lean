import Coppice.Ingest.Approval
import Coppice.Std.Threads

/-!
# Approvals beside each other

An approval loads and checks its item, tests that the destination is free, moves the file, tests and
moves the sidecars, commits, and moves everything back when the commit fails. Any number of them
run at once and each of these is one step; every database step may fail.
-/

namespace Coppice.Ingest

open Coppice.Std

section Model

/-- A row of the media table, with the item it came from. -/
structure MediaRow where
  id : String
  path : Path
  origin : String
deriving DecidableEq, Repr

/-- The disk and the tables. The items some approval has in hand are listed beside them; no step
depends on that list. -/
structure Registry where
  disk : Disk
  items : List DropItem
  media : List MediaRow := []
  hand : List String := []
deriving DecidableEq, Repr

def Registry.release (registry : Registry) (itemId : String) : Registry :=
  { registry with hand := registry.hand.filter (· ≠ itemId) }

/-- An item on its way into the library, with the sidecars moved beside it. -/
structure Transit where
  item : DropItem
  destination : Path
  stagedIsDir : Bool
  moved : List Path := []
deriving DecidableEq, Repr

def Transit.folder (transit : Transit) : Path := transit.destination.dropLast

/-- The transaction of an approval. -/
def Registry.record (registry : Registry) (transit : Transit) (mediaId : String) : Registry :=
  { registry with
    items := updateAt DropItem.id transit.item.id
      (commitColumns transit.item mediaId transit.moved) registry.items
    media := registry.media ++ [⟨mediaId, transit.destination, transit.item.id⟩] }

/-- An approval, at its next step. -/
inductive Approving where
  | call (itemId : String) (expectedRevision : Nat)
  | checked (transit : Transit)
  | tested (transit : Transit)
  | sidecars (transit : Transit) (rest : List Path)
  | sidecarTested (transit : Transit) (source : Path) (name : String) (rest : List Path)
  | commit (transit : Transit)
  | restoring (transit : Transit)
  | restoringSidecars (transit : Transit) (rest : List Path)
  | committed (item : DropItem)
  | failed (item : DropItem)
  | succeeded
  | ended
deriving DecidableEq, Repr

/-- How a database step ends. -/
inductive DbResult where
  | fine (mediaId : String)
  | fails
deriving DecidableEq, Repr

variable (libraryRoot : Path)

/-- The checks of a loaded item. -/
def checkItem (registry : Registry) (expectedRevision : Nat) (item : DropItem) : Option Transit :=
  if approvable item expectedRevision then
    (destinationOf libraryRoot item).bind fun destination =>
      let staged := registry.disk.tree item.stagingPath
      if staged.isEmpty then none else some ⟨item, destination, staged.isDir, []⟩
  else none

def Approving.advance (result : DbResult) (task : Approving) (registry : Registry) :
    Option (Registry × Approving) :=
  match task with
  | .call itemId expectedRevision =>
    match result, lookup DropItem.id registry.items itemId with
    | .fine _, some item =>
      match checkItem libraryRoot registry expectedRevision item with
      | none => some (registry, .failed item)
      | some transit => some ({ registry with hand := itemId :: registry.hand }, .checked transit)
    | _, _ => some (registry, .ended)
  | .checked transit =>
    if (registry.disk.tree transit.destination).isEmpty then some (registry, .tested transit)
    else some (registry.release transit.item.id, .failed transit.item)
  | .tested transit =>
    if result = .fails || isBlocked registry.disk transit.destination then
      some (registry.release transit.item.id, .failed transit.item)
    else
      let moved := moveTarget transit.stagedIsDir registry.disk transit.item.stagingPath
        transit.destination
      let after := { registry with disk := moved.1 }
      if moved.2 then
        some (after, .sidecars transit
          (if transit.stagedIsDir then [] else transit.item.sidecarPaths))
      else some (after.release transit.item.id, .failed transit.item)
  | .sidecars transit [] =>
    let sorted := transit.moved.mergeSort fun left right => pathText left ≤ pathText right
    some (registry, .commit { transit with moved := sorted })
  | .sidecars transit (source :: rest) =>
    match (fileName source).filter fun name =>
        (registry.disk.tree (transit.folder ++ [name])).isEmpty with
    | none => some (registry, .sidecars transit rest)
    | some name => some (registry, .sidecarTested transit source name rest)
  | .sidecarTested transit source name rest =>
    match moveFile registry.disk source (transit.folder ++ [name]) with
    | none => some (registry, .sidecars transit rest)
    | some disk =>
      some ({ registry with disk := disk },
        .sidecars { transit with moved := transit.moved ++ [transit.folder ++ [name]] } rest)
  | .commit transit =>
    match result with
    | .fails => some (registry, .restoring transit)
    | .fine mediaId =>
      some ((registry.record transit mediaId).release transit.item.id, .committed transit.item)
  | .restoring transit =>
    let back := moveTarget transit.stagedIsDir registry.disk transit.destination
      transit.item.stagingPath
    some ({ registry with disk := back.1 }, .restoringSidecars transit transit.moved)
  | .restoringSidecars transit [] =>
    some (registry.release transit.item.id, .failed transit.item)
  | .restoringSidecars transit (target :: rest) =>
    let back := restoreSidecar transit.item.sidecarPaths registry.disk target
    some ({ registry with disk := back }, .restoringSidecars transit rest)
  | .committed item =>
    -- the row is read again once the commit is durable
    match result with
    | .fine _ => some (registry, .succeeded)
    | .fails => some (registry, .failed item)
  | .failed _ | .succeeded | .ended => none

/-- Approvals of any items, called at any time. -/
def approvals : Machine (Pool Registry Approving) (PoolTurn (String × Nat) DbResult) :=
  Pool.machine (fun call => Approving.call call.1 call.2) (Approving.advance libraryRoot)

end Model

section Statement

/-- What an approval has placed in the library so far. -/
def Approving.placed : Approving → List Path
  | sidecars transit _ | sidecarTested transit _ _ _ | commit transit | restoring transit =>
    transit.destination :: transit.moved
  | restoringSidecars _ rest => rest
  | _ => []

/-- Nothing is at the path, and nothing an approval has placed or committed is above or below. -/
structure Clear (pool : Pool Registry Approving) (path : Path) : Prop where
  free : pool.shared.disk.tree path = []
  media : ∀ row ∈ pool.shared.media, Apart path row.path
  placed : ∀ task ∈ pool.threads, ∀ other ∈ task.placed, Apart path other

/-- A step that no other approval comes in between: an item is loaded while no approval has it in
hand, a file or sidecar is moved to a path that is clear, and the row of a committed item can be
read. -/
def Approving.Unhindered (pool : Pool Registry Approving) (result : DbResult) : Approving → Prop
  | call itemId _ => itemId ∉ pool.shared.hand
  | tested transit => Clear pool transit.destination
  | sidecarTested transit _ name _ => Clear pool (transit.folder ++ [name])
  | committed _ => result ≠ .fails
  | _ => True

def Unhindered : PoolTurn (String × Nat) DbResult → Pool Registry Approving → Prop
  | .start _, _ => True
  | .move index result, pool => ∀ task ∈ pool.threads[index]?, task.Unhindered pool result

/-- The sidecars of an item that are not inside its folder. -/
def outerSidecars (item : DropItem) : List Path :=
  item.sidecarPaths.filter fun sidecar => Apart sidecar item.stagingPath

/-- The paths in staging an item is moved from and back to. -/
def homes (item : DropItem) : List Path := item.stagingPath :: outerSidecars item

/-- Staged files and sidecars that do not touch, outside of the library. -/
structure Layout (libraryRoot : Path) (start : Registry) : Prop where
  ids : (start.items.map DropItem.id).Nodup
  apart : ∀ first ∈ start.items, ∀ second ∈ start.items, ∀ here ∈ homes first,
    ∀ there ∈ homes second, first.id ≠ second.id ∨ here ≠ there → Apart here there
  library : ∀ item ∈ start.items, ∀ home ∈ homes item, Apart libraryRoot home
  inside : ∀ item ∈ start.items, ∀ sidecar ∈ item.sidecarPaths,
    Apart sidecar item.stagingPath ∨ item.stagingPath <+: sidecar
  names : ∀ item ∈ start.items, ∀ first ∈ outerSidecars item, ∀ second ∈ item.sidecarPaths,
    fileName first = fileName second → first = second
  unblocked : ∀ item ∈ start.items, ∀ home ∈ homes item, start.disk.Unblocked home

/-- The item's row, file and sidecars are as they were. -/
structure AtRest (start registry : Registry) (item : DropItem) : Prop where
  row : lookup DropItem.id registry.items item.id = some item
  file : registry.disk.tree item.stagingPath = start.disk.tree item.stagingPath
  sidecars : ∀ sidecar ∈ item.sidecarPaths, registry.disk.tree sidecar = start.disk.tree sidecar

/-- What a failed approval leaves: the row as it was loaded, and unless that is committed already,
everything in staging. -/
structure LeftAlone (start registry : Registry) (item : DropItem) : Prop where
  row : lookup DropItem.id registry.items item.id = some item
  staged : item.status ≠ .committed → AtRest start registry item

/-- Every media row has its item's own bytes, and every item has one media row at most. -/
structure OwnBytes (start registry : Registry) : Prop where
  committed : ∀ row ∈ registry.media, ∃ current, lookup DropItem.id registry.items row.origin =
    some current ∧ current.status = .committed ∧ current.mediaId = some row.id
  bytes : ∀ row ∈ registry.media, ∃ item ∈ start.items, item.id = row.origin ∧
    registry.disk.tree row.path = start.disk.tree item.stagingPath
  once : (registry.media.map MediaRow.origin).Nodup

/-- Nothing approved and no approval under way. -/
def Fresh (start : Registry) (pool : Pool Registry Approving) : Prop :=
  start.media = [] ∧ start.hand = [] ∧ pool = ⟨start, []⟩

end Statement

end Coppice.Ingest
