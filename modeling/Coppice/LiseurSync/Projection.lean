import Coppice.LiseurSync.Native

/-!
# Native projections of client records

A record a client owns is projected onto the book its work is linked to, as a
`media_annotations` or `bookmarks` row under an identity derived from the
record's. `projectAnnotation` writes or removes that row; the projection cursor
of the account says up to which feed position this was done.
-/

namespace Coppice.LiseurSync

open Coppice.Std Models Models.Store

/-- The row a record projects to, in one of the two native tables. -/
inductive NativeRow where
  | mark (row : MediaAnnotation)
  | bookmark (row : Bookmark)
deriving DecidableEq, Repr

/-- Remove a projection from both native tables. -/
def deleteNativeAnnotationProjection (s : Store) (projectionId : String) : Store :=
  { s with
    mediaAnnotations := s.mediaAnnotations.filter fun row => row.id ≠ projectionId
    bookmarks := s.bookmarks.filter fun row => row.id ≠ projectionId }

/-- Add a projected row to its table. -/
def insertNativeRow (s : Store) : NativeRow → Store
  | .mark row => { s with mediaAnnotations := s.mediaAnnotations ++ [row] }
  | .bookmark row => { s with bookmarks := s.bookmarks ++ [row] }

/-- The links of a work. -/
def linksOf (s : Store) (workId : String) : List MediaLink :=
  s.links.filter fun link => link.workId = workId

/-- The book a record projects onto: the link of its work that ranks first. -/
def linkedAnnotationMediaId (s : Store) (row : StoredAnnotation) : Option String :=
  ((linksOf s row.workId).insertionSort fun left right =>
    projectionLinkLe s (row.editionSha.getD "") left right = true).head?.map MediaLink.mediaId

section Calls

variable [Host]

def readiumProjectionLocator (row : StoredAnnotation) : Option ReadiumLocator :=
  (row.locator.bind ReadiumLocator.fromValue).filter ReadiumLocator.usable

/-- A timestamp column read back as an instant. -/
def instant (text : String) : Txn Int :=
  (Host.parseFromRfc3339 text).mapError .internal

/-- The locator of a projected highlight or note: a note has no highlighted
text, and a highlight without any takes its excerpt. -/
def markLocator (row : StoredAnnotation) (locator : ReadiumLocator) : ReadiumLocator :=
  if row.kind = "note" then ReadiumLocator.withoutHighlight locator
  else if blank (ReadiumLocator.highlight locator) = true ∧ row.excerpt ≠ "" then
    ReadiumLocator.withHighlight locator row.excerpt
  else locator

/-- The row a record derives on a book. -/
def nativeRowOf (userId : String) (row : StoredAnnotation) (locator : ReadiumLocator)
    (mediaId : String) (createdAt updatedAt : Int) : NativeRow :=
  if row.kind = "bookmark" then
    .bookmark
      { id := liseurSyncProjectionId userId row.id
        previewContent := (nonempty row.excerpt).or (ReadiumLocator.highlight locator)
        locator := some locator, page := locator.locations.bind (·.position), positionMs := none
        mediaId := mediaId, createdAt := createdAt }
  else
    .mark
      { id := liseurSyncProjectionId userId row.id, locator := markLocator row locator
        positionMs := none, annotationText := nonempty row.body
        color := if row.kind = "highlight" ∧ row.color ∈ annotationColors then some row.color
          else none
        mediaId := mediaId, createdAt := createdAt, updatedAt := updatedAt }

/-- The projection the current links give a record: none for a tombstone, for a
locator no reader can open, and for a work without a linked book. -/
def projectionOf (s : Store) (row : StoredAnnotation) : Txn (Option NativeRow) :=
  if row.deleted = true ∨ row.kind ∉ ["highlight", "note", "bookmark"] then .ok none
  else
    match readiumProjectionLocator row, linkedAnnotationMediaId s row with
    | none, _ => .ok none
    | some _, none => .ok none
    | some locator, some mediaId => do
        let createdAt ← instant row.clientTs
        let updatedAt ← instant row.updatedAt
        return some (nativeRowOf s.userId row locator mediaId createdAt updatedAt)

/-- Write or remove the native row that mirrors one record. A native mirror has
none. -/
def projectAnnotation (s : Store) (row : StoredAnnotation) : Txn Store :=
  if isStumpNativeAnnotationId row.id then .ok s
  else do
    let projection ← projectionOf s row
    let cleared := deleteNativeAnnotationProjection s (liseurSyncProjectionId s.userId row.id)
    return projection.elim cleared (insertNativeRow cleared)

/-- The records between two feed positions, in feed order. -/
def feedRange (s : Store) (above upTo : Nat) : List StoredAnnotation :=
  orderBy StoredAnnotation.seq
    (s.annotations.filter fun row => above < row.seq && row.seq ≤ upTo)

/-- Bring the native projections up to the high water: project every record
above the cursor, in order, and move the cursor. -/
def reconcileAnnotationProjections (s : Store) : Txn Store :=
  if s.annotationSeq ≤ s.projectedAnnotationSeq then .ok s
  else do
    let projected ← (feedRange s s.projectedAnnotationSeq s.annotationSeq).foldlM
      projectAnnotation s
    return { projected with projectedAnnotationSeq := s.annotationSeq }

end Calls
end Coppice.LiseurSync
