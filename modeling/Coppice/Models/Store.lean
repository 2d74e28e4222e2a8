import Coppice.Models.ReadingState
import Coppice.Std.Batch
import Coppice.Std.Text

/-!
# The tables of one account

The rows the liseur-sync lane reads and writes, restricted to one user: a row's
`user_id` column is the account the store belongs to. A text column that holds
serialized JSON is modelled by the JSON value. A counter row that does not exist
reads as zero everywhere, so `ensure_counter` has no counterpart.
-/

namespace Coppice.Models

open Coppice.Std

/-- `LiseurSyncError`, as far as the storage layer raises it. -/
inductive SyncError where
  | badRequest (message : String)
  | notFound (message : String)
  | itemRefusal (status : Nat) (code message : String) (itemIndex : Option Nat)
      (sessionId opId workId : Option String) (limit : Option Nat)
  | identityConflict (works : List String)
  | internal (message : String)
deriving DecidableEq, Repr

/-- A row of `media_metadata`. -/
structure MediaMetadata where
  title : Option String
  writers : Option String
deriving DecidableEq, Repr

/-- A row of `media`, with the access rules of its library already evaluated
for the account: `visible` is a book the catalogue may show. -/
structure Media where
  id : String
  name : String
  path : String
  pages : Int
  hash : Option String
  koreaderHash : Option String
  deleted : Bool
  visible : Bool
  audio : Bool
  metadata : Option MediaMetadata
deriving DecidableEq, Repr

/-- A row of `liseur_sync_works`. -/
structure Work where
  id : String
  title : String
  author : String
  pending : Bool
  createdAt : String
deriving DecidableEq, Repr

/-- Whether an edition digest was recomputed from the file. -/
inductive ResolutionStatus where
  | verified
  | unverified
deriving DecidableEq, Repr

/-- A row of `liseur_sync_editions`. -/
structure Edition where
  editionSha : String
  sampledHash : Option String
  koreaderHash : Option String
  workId : String
  mediaId : Option String
  pageCount : Option Int
  resolutionStatus : ResolutionStatus
  createdAt : String
deriving DecidableEq, Repr

/-- A row of `liseur_sync_aliases`. -/
structure Alias where
  kind : String
  value : String
  workId : String
  editionSha : Option String
  createdAt : String
deriving DecidableEq, Repr

/-- An edition of the work, a guess, or a guess the user refused. -/
inductive PairStatus where
  | confirmed
  | suggested
  | rejected
deriving DecidableEq, Repr

/-- Why pairing believes two media rows are the same work. -/
inductive PairEvidence where
  | manual
  | workId
  | providerEditionList
  | sameDrop
  | titleAuthor
deriving DecidableEq, Repr

/-- A row of `liseur_sync_media_links`. -/
structure MediaLink where
  id : String
  mediaId : String
  workId : String
  editionSha : String
  resolutionStatus : ResolutionStatus
  createdAt : String
  pairStatus : PairStatus
  pairEvidence : Option PairEvidence
deriving DecidableEq, Repr

/-- Who put an op in the log: a liseur device, or the protocol mirrored. -/
inductive OpOrigin where
  | native
  | mirrored (protocol : SourceProtocol)
deriving DecidableEq, Repr

/-- A row of `liseur_sync_ops`. -/
structure Op where
  seq : Nat
  opId : String
  workId : String
  editionSha : Option String
  deviceId : String
  clientTs : String
  progression : ℚ
  locator : Option Json
  foreignPos : Option String
  origin : OpOrigin
  receivedAt : String
deriving DecidableEq, Repr

/-- A row of `liseur_sync_sessions`. -/
structure Session where
  sessionId : String
  workId : String
  editionSha : Option String
  deviceId : String
  startedAt : String
  endedAt : String
  startProgression : ℚ
  endProgression : ℚ
  idleMs : Int
  payload : Json
  receivedAt : String
deriving DecidableEq, Repr

inductive ReadingStatus where
  | reading
  | finished
  | abandoned
  | notStarted
deriving DecidableEq, Repr

/-- A row of `reading_sessions`. -/
structure ReadingSession where
  sessionDate : Int
  startPercentage : Option ℚ
  endPercentage : Option ℚ
  elapsedSeconds : Option Int
  readthroughNumber : Int
  status : ReadingStatus
  deviceIds : List String
  liseurSessionId : Option String
  mediaId : String
  createdAt : Int
  updatedAt : Option Int
deriving DecidableEq, Repr

/-- A row of `liseur_sync_annotations`: live content or a tombstone. -/
structure StoredAnnotation where
  id : String
  rev : Int
  seq : Nat
  workId : String
  editionSha : Option String
  kind : String
  locator : Option Json
  progression : Option ℚ
  excerpt : String
  color : String
  drawer : Option String
  body : String
  deviceId : String
  clientTs : String
  updatedAt : String
  deleted : Bool
  deletedAt : Option String
  payload : Json
deriving DecidableEq, Repr

/-- A row of `media_annotations`. -/
structure MediaAnnotation where
  id : String
  locator : ReadiumLocator
  positionMs : Option Int
  annotationText : Option String
  color : Option String
  mediaId : String
  createdAt : Int
  updatedAt : Int
deriving DecidableEq, Repr

/-- A row of `bookmarks`. -/
structure Bookmark where
  id : String
  previewContent : Option String
  locator : Option ReadiumLocator
  page : Option Int
  positionMs : Option Int
  mediaId : String
  createdAt : Int
deriving DecidableEq, Repr

/-- One account and the library it sees. -/
structure Store where
  userId : String
  /-- Whether `users` still has the account's row. -/
  loginUser : Bool
  dayResetHourOffset : Int
  media : List Media
  /-- Full-file digests by path: a path that is absent was not found, and one
  without a digest could not be read. -/
  files : List (String × Option String)
  /-- `media_locations`: media id and recorded file hash. -/
  mediaLocations : List (String × String)
  works : List Work
  editions : List Edition
  aliases : List Alias
  links : List MediaLink
  opSeq : Nat
  ops : List Op
  sessions : List Session
  readingSessions : List ReadingSession
  reading : ReadingState
  annotationSeq : Nat
  projectedAnnotationSeq : Nat
  annotations : List StoredAnnotation
  mediaAnnotations : List MediaAnnotation
  bookmarks : List Bookmark
deriving DecidableEq, Repr

namespace Store

/-- An account nothing was ever synced to. -/
def empty (userId : String) : Store :=
  { userId := userId, loginUser := true, dayResetHourOffset := 0, media := [], files := []
    mediaLocations := [], works := [], editions := [], aliases := [], links := [], opSeq := 0
    ops := [], sessions := [], readingSessions := [], reading := .empty, annotationSeq := 0
    projectedAnnotationSeq := 0, annotations := [], mediaAnnotations := [], bookmarks := [] }

def workExists (s : Store) (workId : String) : Bool :=
  s.works.any fun work => work.id = workId

/-- `link_for_media`: the link of one media row. -/
def linkForMedia (s : Store) (mediaId : String) : Option MediaLink :=
  lookup MediaLink.mediaId s.links mediaId

def mediaById (s : Store) (mediaId : String) : Option Media :=
  lookup Media.id s.media mediaId

/-- `media_audio` has a row for the media. -/
def isAudio (s : Store) (mediaId : String) : Bool :=
  s.media.any fun media => media.id = mediaId && media.audio

def findAnnotationRow (s : Store) (id : String) : Option StoredAnnotation :=
  lookup StoredAnnotation.id s.annotations id

def findOp (s : Store) (opId : String) : Option Op :=
  lookup Op.opId s.ops opId

end Store

/-- A transaction body: what it leaves and answers, or the error that rolls it
back. -/
abbrev Txn : Type → Type := Except SyncError

end Coppice.Models
