import Mathlib.Data.String.Basic
import Coppice.LiseurSync.Ops
import Coppice.LiseurSync.Records

/-!
# Native mirrors

A native `media_annotations` or `bookmarks` row on a readable, linked book is
mirrored into the annotation lane under a `stump-native:` identity. The mirror
follows the row: reconciliation creates, updates or retires it, and an update a
device pushes to the mirror is written back to the row first.
-/

namespace Coppice.LiseurSync

open Coppice.Std Models Models.Store

/-- The next feed position of the account. -/
def nextAnnotationSeq (s : Store) : Store × Nat :=
  ({ s with annotationSeq := s.annotationSeq + 1 }, s.annotationSeq + 1)

/-- Rewrite the stored row of an annotation. -/
def updateRow (s : Store) (id : String) (f : StoredAnnotation → StoredAnnotation) : Store :=
  { s with annotations := updateAt StoredAnnotation.id id f s.annotations }

/-- Add a row to the annotation lane. -/
def insertRow (s : Store) (row : StoredAnnotation) : Store :=
  { s with annotations := s.annotations ++ [row] }

/-- A book whose native annotations export: visible and not deleted. -/
def readableNativeMedia (media : Media) : Bool := media.visible && !media.deleted

/-- The link of one media row, when the row is a readable book. -/
def readableNativeLink (s : Store) (mediaId : String) : Option NativeMediaLink :=
  match s.linkForMedia mediaId with
  | none => none
  | some link =>
    if s.media.any fun media => media.id = mediaId && readableNativeMedia media then
      some { workId := link.workId, editionSha := some link.editionSha }
    else none

/-- Delete the native row behind a mirror. -/
def deleteNativeAnnotationSource (s : Store) (id : String) : Txn Store :=
  match parseStumpNativeAnnotationId id with
  | none => .error (.badRequest "native annotation identity is invalid")
  | some (.mark, nativeId) =>
    if (lookup MediaAnnotation.id s.mediaAnnotations nativeId).isNone then
      .error (.notFound "native annotation not found")
    else
      .ok { s with mediaAnnotations := s.mediaAnnotations.filter fun row => row.id ≠ nativeId }
  | some (.bookmark, nativeId) =>
    if (lookup Bookmark.id s.bookmarks nativeId).isNone then
      .error (.notFound "native annotation not found")
    else .ok { s with bookmarks := s.bookmarks.filter fun row => row.id ≠ nativeId }

/-- The works a window of the sweep visits: those with a link or a live native
mirror, in id order, after the last one visited. `LIKE` ignores ASCII case. -/
def nativeSweepWindow (s : Store) (after : Option String) (limit : Nat) : List String :=
  let linked := s.links.map MediaLink.workId
  let mirrored := (s.annotations.filter fun row =>
    !row.deleted && isStumpNativeAnnotationId (toAsciiLowercase row.id)).map StoredAnnotation.workId
  (orderBy id ((linked ++ mirrored).dedup.filter fun work => after.getD "" < work)).take limit

def nativeSweepWorksPerPoll : Nat := 64

/-- The native mirrors of some works, live and tombstoned. -/
def nativeMirrorsForWorks (s : Store) (works : List String) : List StoredAnnotation :=
  s.annotations.filter fun row =>
    row.workId ∈ works && (parseStumpNativeAnnotationId row.id).isSome

section Calls

variable [Host]

/-- What a native identity exports as today: nothing once its row is gone,
unlinked or unreadable. -/
def nativeCandidateForId (s : Store) (id : String) : Option NativeAnnotationCandidate :=
  match parseStumpNativeAnnotationId id with
  | none => none
  | some (.mark, nativeId) =>
    (lookup MediaAnnotation.id s.mediaAnnotations nativeId).bind fun row =>
      (readableNativeLink s row.mediaId).bind (mediaAnnotationCandidate row)
  | some (.bookmark, nativeId) =>
    (lookup Bookmark.id s.bookmarks nativeId).bind fun row =>
      (readableNativeLink s row.mediaId).bind (bookmarkCandidate row)

/-- The native rows on the readable books linked to some works, as the records
they export as. -/
def nativeCandidatesForWorks (s : Store) (works : List String) :
    List NativeAnnotationCandidate :=
  let link (mediaId : String) : Option NativeMediaLink :=
    (readableNativeLink s mediaId).filter fun link => link.workId ∈ works
  (Host.scan s.mediaAnnotations).filterMap
      (fun row => (link row.mediaId).bind (mediaAnnotationCandidate row)) ++
    (Host.scan s.bookmarks).filterMap (fun row => (link row.mediaId).bind (bookmarkCandidate row))

/-- The row a mirror is first stored as. -/
def mirrorOf (candidate : NativeAnnotationCandidate) (seq : Nat) : StoredAnnotation :=
  { id := candidate.id, rev := 1, seq := seq, workId := candidate.workId
    editionSha := candidate.editionSha, kind := candidate.kind
    locator := some candidate.locator, progression := candidate.progression
    excerpt := candidate.excerpt, color := candidate.color, drawer := none
    body := candidate.body, deviceId := "stump-native", clientTs := candidate.clientTs
    updatedAt := candidate.updatedAt, deleted := false, deletedAt := none
    payload := annotationPayload (candidate.input 0 candidate.clientTs) }

/-- A mirror brought up to its native row, over the revision it was read at. -/
def refreshMirror (candidate : NativeAnnotationCandidate) (stored : StoredAnnotation) (seq : Nat)
    (row : StoredAnnotation) : StoredAnnotation :=
  { row with
    rev := stored.rev + 1, seq := seq, workId := candidate.workId
    editionSha := candidate.editionSha, kind := candidate.kind
    locator := some candidate.locator, progression := candidate.progression
    excerpt := candidate.excerpt, color := candidate.color, body := candidate.body
    deviceId := "stump-native", updatedAt := candidate.updatedAt, deleted := false
    deletedAt := none, payload := annotationPayload (candidate.input stored.rev stored.clientTs) }

/-- A row turned into a tombstone, over the revision it was read at. -/
def tombstone (now : Int) (rev : Int) (seq : Nat) (row : StoredAnnotation) : StoredAnnotation :=
  { row with
    rev := rev + 1, seq := seq, updatedAt := nowString now, deleted := true
    deletedAt := some (nowString now) }

def tombstoneNativeMirror (now : Int) (s : Store) (stored : StoredAnnotation) : Store :=
  let (s, seq) := nextAnnotationSeq s
  updateRow s stored.id (tombstone now stored.rev seq)

def reconcileNativeCandidate (s : Store) (candidate : NativeAnnotationCandidate)
    (stored : Option StoredAnnotation) : Store :=
  match stored with
  | none =>
    let (s, seq) := nextAnnotationSeq s
    insertRow s (mirrorOf candidate seq)
  | some stored =>
    if nativeCandidateMatches stored candidate then s
    else
      let (s, seq) := nextAnnotationSeq s
      updateRow s candidate.id (refreshMirror candidate stored seq)

/-- Reconcile one native identity; the caller may already hold the mirror. -/
def reconcileNativeId (now : Int) (s : Store) (id : String) (stored : Option StoredAnnotation) :
    Store :=
  let stored := stored.or (findAnnotationRow s id)
  match nativeCandidateForId s id, stored with
  | some candidate, stored => reconcileNativeCandidate s candidate stored
  | none, some stored => if stored.deleted then s else tombstoneNativeMirror now s stored
  | none, none => s

/-- Reconcile the mirrors of exactly the native identities a request names. -/
def reconcileNativeIds (now : Int) (s : Store) (ids : List String) : Store :=
  if s.loginUser then
    (ids.filter isStumpNativeAnnotationId).foldl (fun s id => reconcileNativeId now s id none) s
  else s

/-- One candidate of a window: its mirror is the one read for the window, or the
one another work has. The mirror leaves the window either way. -/
def reconcileWindowCandidate (state : Store × List StoredAnnotation)
    (candidate : NativeAnnotationCandidate) : Store × List StoredAnnotation :=
  let stored := (lookup StoredAnnotation.id state.2 candidate.id).or
    (findAnnotationRow state.1 candidate.id)
  (reconcileNativeCandidate state.1 candidate stored,
    state.2.filter fun row => row.id ≠ candidate.id)

/-- Diff the native rows of some works against their mirrors. A mirror the window
does not match is derived again from its native row, which may be linked under
another work now. -/
def reconcileNativeWorks (now : Int) (s : Store) (works : List String) : Store :=
  let mirrors := nativeMirrorsForWorks s works
  let linked := s.links.any fun link => link.workId ∈ works
  if (linked = false ∧ mirrors.all (·.deleted) = true) ∨ s.loginUser = false then s
  else
    let (s, mirrors) := (nativeCandidatesForWorks s works).foldl reconcileWindowCandidate
      (s, mirrors)
    ((Host.scan mirrors).filter fun row => !row.deleted).foldl
      (fun s row => reconcileNativeId now s row.id (some row)) s

/-- One bounded pass of the sweep, and where the next one resumes. -/
def reconcileNativeAnnotations (now : Int) (s : Store) (after : Option String) :
    Store × Option String :=
  let works := nativeSweepWindow s after nativeSweepWorksPerPoll
  (reconcileNativeWorks now s works,
    if works.length = nativeSweepWorksPerPoll then works.getLast? else none)

/-- A `media_annotations` row after an update was written back to it. -/
def writtenMark (now : Int) (incoming : AnnotationInput) (stored : StoredAnnotation)
    (locator : ReadiumLocator) (row : MediaAnnotation) : MediaAnnotation :=
  { row with
    locator := locator, annotationText := nonempty incoming.body
    color := nonempty (annotationColorForUpdate incoming stored), updatedAt := now }

/-- The input rewritten to what that row holds. -/
def markInput (incoming : AnnotationInput) (stored : StoredAnnotation) (locator : ReadiumLocator) :
    AnnotationInput :=
  { incoming with
    editionSha := stored.editionSha, progression := nativeProgression locator
    excerpt :=
      if incoming.kind = "highlight" then (ReadiumLocator.highlight locator).getD "" else ""
    color := some (annotationColorForUpdate incoming stored), locator := some locator.toValue }

/-- The preview a bookmark takes from an update. -/
def bookmarkPreview (incoming : AnnotationInput) (locator : ReadiumLocator) : Option String :=
  (nonempty incoming.excerpt).or (ReadiumLocator.highlight locator)

/-- A `bookmarks` row after an update was written back to it. -/
def writtenBookmark (incoming : AnnotationInput) (locator : ReadiumLocator) (row : Bookmark) :
    Bookmark :=
  { row with
    previewContent := bookmarkPreview incoming locator, locator := some locator
    page := locator.locations.bind (·.position) }

/-- The input rewritten to what that row holds. -/
def bookmarkInput (incoming : AnnotationInput) (stored : StoredAnnotation)
    (locator : ReadiumLocator) : AnnotationInput :=
  { incoming with
    editionSha := stored.editionSha, progression := nativeProgression locator
    excerpt := (bookmarkPreview incoming locator).getD "", color := some "", body := ""
    locator := some locator.toValue }

/-- Write an update back to the native row, and rewrite the input to what the
row now holds. -/
def writebackNativeAnnotation (now : Int) (s : Store) (incoming : AnnotationInput)
    (stored : StoredAnnotation) : Txn (Store × AnnotationInput) :=
  match parseStumpNativeAnnotationId incoming.id, nativeUpdateLocator incoming.kind incoming stored
    with
  | none, _ => .error (.internal "native annotation identity is invalid")
  | some _, none => .error (.internal "native annotation locator is invalid")
  | some (.mark, nativeId), some locator =>
    if (lookup MediaAnnotation.id s.mediaAnnotations nativeId).isNone then
      .error (.internal "native annotation disappeared during update")
    else
      .ok ({ s with
          mediaAnnotations := updateAt MediaAnnotation.id nativeId
            (writtenMark now incoming stored locator) s.mediaAnnotations },
        markInput incoming stored locator)
  | some (.bookmark, nativeId), some locator =>
    if (lookup Bookmark.id s.bookmarks nativeId).isNone then
      .error (.internal "native bookmark disappeared during update")
    else
      .ok ({ s with
          bookmarks := updateAt Bookmark.id nativeId (writtenBookmark incoming locator)
            s.bookmarks },
        bookmarkInput incoming stored locator)

end Calls
end Coppice.LiseurSync
