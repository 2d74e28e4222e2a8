import Mathlib.Algebra.Order.Ring.Nat
import Coppice.Std.Json

/-!
# Drop items

An item of the ingest queue: a staged file on its way into a library.
-/

namespace Coppice.Ingest

open Coppice.Std

/-- The components of a path. -/
abbrev Path := List String

/-- Lifecycle of a drop item. -/
inductive DropItemStatus where
  | received | staged | analyzing | awaitingReview | ready | committed | rejected | failed
deriving DecidableEq, Repr

/-- Committed or rejected. -/
def DropItemStatus.isResolved : DropItemStatus → Bool
  | committed | rejected => true
  | _ => false

/-- A row of `ingest_drop_items`. -/
structure DropItem where
  id : String
  libraryId : String
  sourceFilename : String
  relativePath : Option String := none
  byteSize : Nat
  sourceSha256 : String
  stagingPath : Path
  status : DropItemStatus := .staged
  analysisJobId : Option String := none
  mediaId : Option String := none
  pendingFields : Option Json := some (.obj [])
  error : Option String := none
  idempotencyKey : Option String := none
  preprocessed : Bool := false
  dropGroupId : Option String := none
  sidecarPaths : List Path := []
  revision : Nat := 1
deriving DecidableEq, Repr

/-- The next revision; the counter stops at the largest `i32`. -/
def nextRevision (revision : Nat) : Nat := min (revision + 1) (2 ^ 31 - 1)

end Coppice.Ingest
